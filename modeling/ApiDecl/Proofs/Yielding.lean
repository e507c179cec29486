import ApiDecl.Proofs.Result

/-!
# Proofs: what computations can give

Whatever a computation gives has some property, after all events (`Traced.Yields`); for one that may
fail, if it gives anything (`Compile.Yields`). That it does give something is `Compile.Succeeds`.
-/

namespace ApiDecl

variable {α β : Type}

/-- Whatever the computation gives has the property. -/
def Traced.Yields (P : α → Prop) (x : Traced α) : Prop := ∀ log, P (Id.run (x.run log)).1

namespace Traced.Yields

variable {P : α → Prop} {Q : β → Prop}

theorem pure {a : α} (h : P a) : Traced.Yields P (pure a) := fun _ => h

theorem note (e : Event) : Traced.Yields (fun _ => True) (note e) := fun _ => trivial

theorem anything (x : Traced α) : Traced.Yields (fun _ => True) x := fun _ => trivial

theorem mono {P' : α → Prop} {x : Traced α} (hx : Traced.Yields P x) (h : ∀ a, P a → P' a) :
    Traced.Yields P' x := fun log => h _ (hx log)

theorem and {P' : α → Prop} {x : Traced α} (h : Traced.Yields P x) (h' : Traced.Yields P' x) :
    Traced.Yields (fun a => P a ∧ P' a) x := fun log => ⟨h log, h' log⟩

theorem bind {x : Traced α} {f : α → Traced β} (hx : Traced.Yields P x)
    (hf : ∀ a, P a → Traced.Yields Q (f a)) : Traced.Yields Q (x >>= f) := by
  intro log
  rw [StateT.run_bind, Id.run_bind]
  exact hf _ (hx log) _

/-- What every step keeps is kept by going through a list. -/
theorem foldlM {f : β → α → Traced β} {l : List α} {b : β} (hb : Q b)
    (hf : ∀ b, ∀ a ∈ l, Q b → Traced.Yields Q (f b a)) : Traced.Yields Q (l.foldlM f b) := by
  induction l generalizing b with
  | nil => exact .pure hb
  | cons a l ih =>
    rw [List.foldlM_cons]
    refine (hf b a List.mem_cons_self hb).bind fun b' hb' => ih hb' fun b a ha => ?_
    exact hf b a (List.mem_cons_of_mem _ ha)

/-- Where every step gives one value only, so does going through a list. -/
theorem foldlM_eq {f : β → α → Traced β} {g : β → α → β}
    (hf : ∀ b a, Traced.Yields (· = g b a) (f b a)) (l : List α) (b : β) :
    Traced.Yields (· = l.foldl g b) (l.foldlM f b) := by
  induction l generalizing b with
  | nil => exact .pure rfl
  | cons a l ih =>
    rw [List.foldlM_cons]
    refine (hf b a).bind fun b' hb' => ?_
    exact hb' ▸ ih (g b a)

end Traced.Yields

/-- Whatever the computation gives, if it does not fail, has the property. -/
def Compile.Yields (P : α → Prop) (x : Compile α) : Prop :=
  ∀ log a, (x.after log).1 = .ok a → P a

namespace Compile.Yields

variable {P : α → Prop} {Q : β → Prop}

theorem pure {a : α} (h : P a) : Compile.Yields P (pure a) := by
  intro log b hb
  cases hb
  exact h

theorem throw (e : Error) : Compile.Yields P (throw e) := by
  intro log b hb
  cases hb

theorem note (e : Event) : Compile.Yields (fun _ => True) (liftM (note e)) := fun _ _ _ => trivial

theorem anything (x : Compile α) : Compile.Yields (fun _ => True) x := fun _ _ _ => trivial

theorem lift {x : Traced α} (h : Traced.Yields P x) : Compile.Yields P (liftM x) := by
  intro log a ha
  have hrun : ((liftM x : Compile α).after log).1 = .ok (Id.run (x.run log)).1 := rfl
  cases hrun.symm.trans ha
  exact h log

theorem ofExcept {r : Except Error α} (h : ∀ a, r = .ok a → P a) :
    Compile.Yields P (liftExcept r) := by
  intro log a ha
  rw [steady_liftExcept r log, result_liftExcept] at ha
  exact h a ha

/-- A computation whose result is always the same gives that result. -/
theorem of_steady {x : Compile α} (hx : x.Steady) :
    Compile.Yields (fun a => x.result = .ok a) x := by
  intro log a ha
  rw [← hx log]
  exact ha

theorem bind {x : Compile α} {f : α → Compile β} (hx : Compile.Yields P x)
    (hf : ∀ a, P a → Compile.Yields Q (f a)) : Compile.Yields Q (x >>= f) := by
  intro log b hb
  have ha := hx log
  revert ha hb
  rw [after_bind]
  rcases x.after log with ⟨r, events⟩
  intro hb ha
  cases r with
  | error e => cases hb
  | ok a => exact hf a (ha a rfl) events b hb

theorem map {x : Compile α} {f : α → β} (hx : Compile.Yields P x) (hf : ∀ a, P a → Q (f a)) :
    Compile.Yields Q (f <$> x) := by
  rw [map_eq_pure_bind]
  exact hx.bind fun a ha => .pure (hf a ha)

theorem mapM {R : β → α → Prop} {f : β → Compile α} {l : List β}
    (hf : ∀ b ∈ l, Compile.Yields (R b) (f b)) :
    Compile.Yields (List.Forall₂ R l) (l.mapM f) := by
  induction l with
  | nil => exact .pure .nil
  | cons b l ih =>
    rw [List.mapM_cons]
    refine (hf b List.mem_cons_self).bind fun a ha => ?_
    refine (ih fun b' hb' => hf b' (List.mem_cons_of_mem _ hb')).bind fun as has => ?_
    exact .pure (.cons ha has)

theorem optionMapM {f : β → Compile α} {R : β → α → Prop} (o : Option β)
    (hf : ∀ b ∈ o, Compile.Yields (R b) (f b)) : Compile.Yields (Option.Rel R o) (o.mapM f) := by
  cases o with
  | none => exact .pure .none
  | some b => exact (hf b rfl).map fun a ha => .some ha

end Compile.Yields

/-- The computation does not fail, after whatever events. -/
def Compile.Succeeds (x : Compile α) : Prop := ∀ log, ∃ a, (x.after log).1 = .ok a

namespace Compile.Succeeds

theorem pure (a : α) : (pure a : Compile α).Succeeds := fun _ => ⟨a, rfl⟩

theorem lift (x : Traced α) : (liftM x : Compile α).Succeeds := fun _ => ⟨_, rfl⟩

theorem of_steady {x : Compile α} (hx : x.Steady) {a : α} (h : x.result = .ok a) : x.Succeeds :=
  fun log => ⟨a, (hx log).trans h⟩

theorem ofExcept {r : Except Error α} {a : α} (h : r = .ok a) :
    (liftExcept r : Compile α).Succeeds :=
  of_steady (steady_liftExcept r) ((result_liftExcept r).trans h)

/-- After a step that succeeds there is a value, of which what it yields is known. -/
theorem bind {P : α → Prop} {x : Compile α} {f : α → Compile β} (hx : x.Succeeds)
    (hP : x.Yields P) (hf : ∀ a, P a → (f a).Succeeds) : (x >>= f).Succeeds := by
  intro log
  obtain ⟨a, ha⟩ := hx log
  have hPa := hP log a ha
  rw [after_bind]
  revert ha
  rcases x.after log with ⟨r, events⟩
  rintro rfl
  exact hf a hPa events

theorem next {x : Compile α} {f : α → Compile β} (hx : x.Succeeds) (hf : ∀ a, (f a).Succeeds) :
    (x >>= f).Succeeds :=
  hx.bind (P := fun _ => True) (fun _ _ _ => trivial) fun a _ => hf a

theorem mapM {f : α → Compile β} {l : List α} (hf : ∀ a ∈ l, (f a).Succeeds) :
    (l.mapM f).Succeeds := by
  induction l with
  | nil => exact .pure []
  | cons a l ih =>
    rw [List.mapM_cons]
    refine (hf a List.mem_cons_self).next fun b => ?_
    refine (ih fun a' ha' => hf a' (List.mem_cons_of_mem _ ha')).next fun bs => ?_
    exact .pure (b :: bs)

theorem optionMapM {f : α → Compile β} {o : Option α} (hf : ∀ a ∈ o, (f a).Succeeds) :
    (o.mapM f).Succeeds := by
  cases o with
  | none => exact .pure none
  | some a =>
    have h := (hf a rfl).next fun b => .pure (some b)
    rwa [← map_eq_pure_bind] at h

end Compile.Succeeds

/-- A computation that succeeds has an outcome. -/
theorem Compile.Succeeds.outcome {x : Compile α} (h : x.Succeeds) :
    ∃ a events, x.outcome = (.ok a, events) := by
  obtain ⟨a, ha⟩ := h #[]
  exact ⟨a, x.outcome.2, Prod.ext ha rfl⟩

/-- What a computation yields its outcome has. -/
theorem Compile.Yields.outcome {P : α → Prop} {x : Compile α} (hx : x.Yields P) {a : α}
    {events : List Event} (h : x.outcome = (.ok a, events)) : P a :=
  hx #[] a (congrArg Prod.fst h)

end ApiDecl
