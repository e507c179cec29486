import ApiDecl.Proofs.Result

/-!
# Proofs: computations that agree

Two computations agree if both fail with the same error or both give values that are related,
whatever has been reported before (`Compile.Agree`). Computations that are put together in the same
way from agreeing parts agree.
-/

namespace ApiDecl

variable {α α' β β' : Type}

/-- The results are the same error, or related values. -/
inductive Related (R : α → β → Prop) : Except Error α → Except Error β → Prop
  | ok {a : α} {b : β} (h : R a b) : Related R (.ok a) (.ok b)
  | error (e : Error) : Related R (.error e) (.error e)

namespace Compile

/-- The computations have related results, after all events. -/
def Agree (R : α → β → Prop) (x : Compile α) (y : Compile β) : Prop :=
  ∀ log log', Related R (x.after log).1 (y.after log').1

namespace Agree

variable {R : α → β → Prop} {S : α' → β' → Prop}

theorem result {x : Compile α} {y : Compile β} (h : Agree R x y) : Related R x.result y.result :=
  h #[] #[]

theorem of_steady {x : Compile α} {y : Compile β} (hx : x.Steady) (hy : y.Steady)
    (h : Related R x.result y.result) : Agree R x y := by
  intro log log'
  rw [hx log, hy log']
  exact h

theorem pure {a : α} {b : β} (h : R a b) : Agree R (pure a) (pure b) := fun _ _ => .ok h

theorem throw (e : Error) : Agree R (throw e) (throw e) := fun _ _ => .error e

/-- Reports agree, whatever they say. -/
theorem note (e e' : Event) : Agree (fun _ _ => True) (liftM (note e)) (liftM (note e')) :=
  fun _ _ => .ok trivial

theorem ofExcept (r : Except Error α) : Agree Eq (liftExcept r) (liftExcept r) := by
  refine of_steady (steady_liftExcept r) (steady_liftExcept r) ?_
  cases r with
  | ok a => exact .ok rfl
  | error e => exact .error e

theorem bind {x : Compile α} {y : Compile β} {f : α → Compile α'} {g : β → Compile β'}
    (h : Agree R x y) (hfg : ∀ a b, R a b → Agree S (f a) (g b)) : Agree S (x >>= f) (y >>= g) := by
  intro log log'
  rw [after_bind, after_bind]
  have hxy := h log log'
  revert hxy
  rcases x.after log with ⟨r, events⟩
  rcases y.after log' with ⟨r', events'⟩
  intro hxy
  cases hxy with
  | ok hab => exact hfg _ _ hab events events'
  | error e => exact .error e

theorem map {x : Compile α} {y : Compile β} {f : α → α'} {g : β → β'} (h : Agree R x y)
    (hfg : ∀ a b, R a b → S (f a) (g b)) : Agree S (f <$> x) (g <$> y) := by
  rw [map_eq_pure_bind, map_eq_pure_bind]
  exact h.bind fun a b hab => .pure (hfg a b hab)

theorem mapM {f : α → Compile α'} {g : β → Compile β'} {as : List α} {bs : List β}
    (h : List.Forall₂ (fun a b => Agree S (f a) (g b)) as bs) :
    Agree (List.Forall₂ S) (as.mapM f) (bs.mapM g) := by
  induction h with
  | nil => exact .pure .nil
  | cons hab _ ih =>
    rw [List.mapM_cons, List.mapM_cons]
    exact hab.bind fun a' b' hab' => ih.bind fun as' bs' hrest => .pure (.cons hab' hrest)

theorem optionMapM {f : α → Compile α'} {g : β → Compile β'} {a : Option α} {b : Option β}
    (h : Option.Rel R a b) (hfg : ∀ a b, R a b → Agree S (f a) (g b)) :
    Agree (Option.Rel S) (a.mapM f) (b.mapM g) := by
  cases h with
  | none => exact .pure .none
  | some hab => exact (hfg _ _ hab).map fun a' b' hab' => .some hab'

end Agree

end Compile

end ApiDecl
