import ApiDecl.Event
import Mathlib.Data.List.Forall2

/-!
# Proofs: results of computations

A computation that reports events and may fail has a result of its own (`Compile.result`). Where the
result does not depend on the events before (`Compile.Steady`), computations one after the other
have the results one after the other: reports can be left out of account. A computation that cannot
fail has a value in the same sense (`Traced.value`).
-/

namespace ApiDecl.Compile

variable {α β : Type}

/-- What a computation gives, and all events, after earlier events. -/
def after (x : Compile α) (log : Array Event) : Except Error α × Array Event :=
  Id.run (x.run.run log)

/-- What a computation gives. -/
def result (x : Compile α) : Except Error α := x.outcome.1

/-- What a computation gives does not depend on earlier events. -/
def Steady (x : Compile α) : Prop := ∀ log, (x.after log).1 = x.result

theorem result_eq (x : Compile α) : x.result = (x.after #[]).1 := rfl

theorem after_bind (x : Compile α) (f : α → Compile β) (log : Array Event) :
    (x >>= f).after log =
      match x.after log with
      | (.ok a, log') => (f a).after log'
      | (.error e, log') => (.error e, log') := by
  unfold after
  rw [ExceptT.run_bind, StateT.run_bind, Id.run_bind]
  rcases Id.run (StateT.run (ExceptT.run x) log) with ⟨_ | _, log'⟩ <;> rfl

theorem ok_bind {ε : Type} (a : α) (f : α → Except ε β) : (Except.ok a >>= f) = f a := rfl

/-! ## Single steps -/

@[simp] theorem result_note (e : Event) : (liftM (note e) : Compile Unit).result = .ok () := rfl

@[simp] theorem result_liftExcept (r : Except Error α) :
    (liftExcept r : Compile α).result = r := by
  cases r <;> rfl

theorem steady_pure (a : α) : (pure a : Compile α).Steady := fun _ => rfl

theorem steady_throw (e : Error) : (throw e : Compile α).Steady := fun _ => rfl

theorem steady_note (e : Event) : (liftM (note e) : Compile Unit).Steady := fun _ => rfl

theorem steady_liftExcept (r : Except Error α) : (liftExcept r : Compile α).Steady := by
  cases r <;> exact fun _ => rfl

/-! ## One step after the other -/

theorem result_bind {x : Compile α} {f : α → Compile β} (hf : ∀ a, (f a).Steady) :
    (x >>= f).result = x.result >>= fun a => (f a).result := by
  rw [result_eq, after_bind, result_eq]
  rcases x.after #[] with ⟨e | a, log⟩
  · rfl
  · exact hf a log

theorem Steady.bind {x : Compile α} {f : α → Compile β} (hx : x.Steady)
    (hf : ∀ a, (f a).Steady) : (x >>= f).Steady := by
  intro log
  rw [result_bind hf, ← hx log, after_bind]
  rcases x.after log with ⟨e | a, log'⟩
  · rfl
  · exact hf a log'

theorem result_map {x : Compile α} (f : α → β) : (f <$> x).result = f <$> x.result := by
  rw [map_eq_pure_bind, result_bind fun a => steady_pure (f a), map_eq_pure_bind]
  rfl

theorem Steady.map {x : Compile α} (hx : x.Steady) (f : α → β) : (f <$> x).Steady := by
  rw [map_eq_pure_bind]
  exact hx.bind fun a => steady_pure (f a)

theorem Steady.mapM {f : α → Compile β} (hf : ∀ a, (f a).Steady) (l : List α) :
    (l.mapM f).Steady := by
  induction l with
  | nil => exact steady_pure []
  | cons a l ih =>
    rw [List.mapM_cons]
    exact (hf a).bind fun b => ih.bind fun bs => steady_pure (b :: bs)

theorem result_mapM {f : α → Compile β} (hf : ∀ a, (f a).Steady) (l : List α) :
    (l.mapM f).result = l.mapM fun a => (f a).result := by
  induction l with
  | nil => rfl
  | cons a l ih =>
    have hrest : ∀ b, (do return b :: (← l.mapM f) : Compile (List β)).Steady := fun b =>
      (Steady.mapM hf l).bind fun bs => steady_pure (b :: bs)
    rw [List.mapM_cons, List.mapM_cons, result_bind hrest]
    refine bind_congr fun b => ?_
    rw [result_bind fun bs => steady_pure (b :: bs), ih]
    rfl

end ApiDecl.Compile

/-! ## Computations that cannot fail -/

namespace ApiDecl.Traced

variable {α β : Type}

/-- What a computation gives. -/
def value (x : Traced α) : α := (Id.run (x.run #[])).1

/-- What a computation gives does not depend on earlier events. -/
def Steady (x : Traced α) : Prop := ∀ log, (Id.run (x.run log)).1 = x.value

theorem steady_pure (a : α) : (pure a : Traced α).Steady := fun _ => rfl

theorem steady_note (e : Event) : (note e).Steady := fun _ => rfl

theorem value_bind {x : Traced α} {f : α → Traced β} (hf : ∀ a, (f a).Steady) :
    (x >>= f).value = (f x.value).value := by
  rw [value, StateT.run_bind, Id.run_bind]
  exact hf _ _

theorem Steady.bind {x : Traced α} {f : α → Traced β} (hx : x.Steady) (hf : ∀ a, (f a).Steady) :
    (x >>= f).Steady := by
  intro log
  rw [value_bind hf, StateT.run_bind, Id.run_bind, ← hx log]
  exact hf _ _

/-- A computation that cannot fail is one that may but does not. -/
theorem Steady.lift {x : Traced α} (hx : x.Steady) : (liftM x : Compile α).Steady :=
  fun log => congrArg Except.ok (hx log)

@[simp] theorem result_lift (x : Traced α) : (liftM x : Compile α).result = .ok x.value := rfl

/-- Whether a computation fails is a value. -/
theorem steady_run {x : Compile α} (hx : x.Steady) : (x.run : Traced (Except Error α)).Steady := hx

end ApiDecl.Traced

namespace ApiDecl

variable {α β γ ε : Type} {f : α → Except ε β}

theorem map_eq_of_forall₂ {f : α → γ} {g : β → γ} {as : List α} {bs : List β}
    (h : List.Forall₂ (fun a b => f a = g b) as bs) : as.map f = bs.map g := by
  induction h with
  | nil => rfl
  | cons hab _ ih => rw [List.map_cons, List.map_cons, hab, ih]

section Monadic

variable {m : Type → Type} [Monad m] {as : List α} {bs : List β}

theorem mapM_eq_of_forall₂ [LawfulMonad m] {f : α → m γ} {g : β → m γ}
    (h : List.Forall₂ (fun a b => f a = g b) as bs) : as.mapM f = bs.mapM g := by
  induction h with
  | nil => rw [List.mapM_nil, List.mapM_nil]
  | cons hab _ ih => rw [List.mapM_cons, List.mapM_cons, hab, ih]

theorem foldlM_eq_of_forall₂ {f : γ → α → m γ} {g : γ → β → m γ}
    (h : List.Forall₂ (fun a b => ∀ c, f c a = g c b) as bs) (c : γ) :
    as.foldlM f c = bs.foldlM g c := by
  induction h generalizing c with
  | nil => rfl
  | cons hab _ ih =>
    rw [List.foldlM_cons, List.foldlM_cons, hab]
    exact bind_congr ih

end Monadic

theorem exists_of_mem_left {R : α → β → Prop} {as : List α} {bs : List β}
    (h : List.Forall₂ R as bs) {a : α} (ha : a ∈ as) : ∃ b ∈ bs, R a b := by
  induction h with
  | nil => cases ha
  | cons hab _ ih =>
    rcases List.mem_cons.1 ha with rfl | ha
    · exact ⟨_, List.mem_cons_self, hab⟩
    · obtain ⟨b, hb, hr⟩ := ih ha
      exact ⟨b, List.mem_cons_of_mem _ hb, hr⟩

theorem exists_of_mem_right {R : α → β → Prop} {as : List α} {bs : List β}
    (h : List.Forall₂ R as bs) {b : β} (hb : b ∈ bs) : ∃ a ∈ as, R a b :=
  exists_of_mem_left h.flip hb

theorem exists_of_rel_some {R : α → β → Prop} {a : Option α} {o : Option β} (h : Option.Rel R a o)
    {b : β} (hb : b ∈ o) : ∃ a', a = some a' ∧ R a' b := by
  cases h with
  | none => cases hb
  | some hab =>
    cases hb
    exact ⟨_, rfl, hab⟩

/-- If two steps succeed, the first one does. -/
theorem exists_of_bind_ok {x : Except ε α} {g : α → Except ε β} {b : β} (h : x >>= g = .ok b) :
    ∃ a, x = .ok a ∧ g a = .ok b := by
  cases x with
  | error e => cases h
  | ok a => exact ⟨a, rfl, h⟩

/-- Two steps fail if the first one does or, behind a first one that succeeds, the second one. -/
theorem bind_eq_error_iff {x : Except ε α} {g : α → Except ε β} {e : ε} :
    x >>= g = .error e ↔ x = .error e ∨ ∃ a, x = .ok a ∧ g a = .error e := by
  cases x with
  | error e' => simp [bind, Except.bind]
  | ok a => simp [bind, Except.bind]

/-- If a mapped step succeeds, the step does. -/
theorem exists_of_map_ok {x : Except ε α} {g : α → β} {b : β} (h : g <$> x = .ok b) :
    ∃ a, x = .ok a ∧ b = g a := by
  cases x with
  | error e => cases h
  | ok a =>
    cases h
    exact ⟨a, rfl, rfl⟩

theorem exists_of_isOk {x : Except ε α} (h : x.isOk = true) : ∃ a, x = .ok a := by
  cases x with
  | error e => cases h
  | ok a => exact ⟨a, rfl⟩

/-- A result that can be evaluated can be looked at. -/
theorem exists_of_any {x : Except ε α} {p : α → Bool} (h : x.toOption.any p = true) :
    ∃ a, x = .ok a ∧ p a = true := by
  cases x with
  | error e => cases h
  | ok a => exact ⟨a, rfl, h⟩

/-- If all calls succeed, the results are those of the calls. -/
theorem exists_forall₂ {R : α → β → Prop} {l : List α} (h : ∀ a ∈ l, ∃ b, R a b) :
    ∃ bs, List.Forall₂ R l bs := by
  induction l with
  | nil => exact ⟨[], .nil⟩
  | cons a l ih =>
    obtain ⟨⟨b, hb⟩, hrest⟩ := List.forall_mem_cons.1 h
    obtain ⟨bs, hbs⟩ := ih hrest
    exact ⟨b :: bs, .cons hb hbs⟩

theorem exists_append_of_forall₂ {R : α → β → Prop} {l l' : List α} {bs : List β}
    (h : List.Forall₂ R (l ++ l') bs) :
    ∃ front back, bs = front ++ back ∧ List.Forall₂ R l front ∧ List.Forall₂ R l' back := by
  induction l generalizing bs with
  | nil => exact ⟨[], bs, rfl, .nil, h⟩
  | cons a l ih =>
    cases h with
    | cons hab hrest =>
      obtain ⟨front, back, rfl, hfront, hback⟩ := ih hrest
      exact ⟨_ :: front, back, rfl, .cons hab hfront, hback⟩

theorem forall₂_of_mapM_ok {l : List α} {bs : List β} (h : l.mapM f = .ok bs) :
    List.Forall₂ (fun a b => f a = .ok b) l bs := by
  induction l generalizing bs with
  | nil =>
    cases h
    exact .nil
  | cons a l ih =>
    rw [List.mapM_cons] at h
    cases ha : f a with
    | error e =>
      rw [ha] at h
      cases h
    | ok b =>
      cases hl : l.mapM f with
      | error e =>
        rw [ha, hl] at h
        cases h
      | ok rest =>
        rw [ha, hl] at h
        cases h
        exact .cons ha (ih hl)

/-- Calls that give results give them all. -/
theorem mapM_ok_of_forall₂ {l : List α} {bs : List β}
    (h : List.Forall₂ (fun a b => f a = .ok b) l bs) : l.mapM f = .ok bs := by
  induction h with
  | nil => rfl
  | cons hab _ ih =>
    rw [List.mapM_cons, hab, ih]
    rfl

/-- If not all calls succeed, the error is that of one of them. -/
theorem exists_of_mapM_error {l : List α} {e : ε} (h : l.mapM f = .error e) :
    ∃ a ∈ l, f a = .error e := by
  induction l with
  | nil => cases h
  | cons a l ih =>
    rw [List.mapM_cons] at h
    cases ha : f a with
    | error e' =>
      rw [ha] at h
      cases h
      exact ⟨a, List.mem_cons_self, ha⟩
    | ok b =>
      cases hl : l.mapM f with
      | error e' =>
        rw [ha, hl] at h
        cases h
        obtain ⟨a', ha', he⟩ := ih hl
        exact ⟨a', List.mem_cons_of_mem _ ha', he⟩
      | ok rest =>
        rw [ha, hl] at h
        cases h

end ApiDecl
