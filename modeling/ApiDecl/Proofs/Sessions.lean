import ApiDecl.Proofs.FileOrder
import ApiDecl.Route.Session

/-!
# Proofs: sessions with a compiler

A computation with a stack restores it if it does what a computation without one does, failures and
reports included, and leaves the stack as it was (`Stacked.Restores`). Computations that are put
together from such computations are such computations, so the whole compiler restores its stack, and
every answer is the one that a new compiler gives (`sessions_have_no_memory`).
-/

namespace ApiDecl

open Compile Syntax

variable {α β : Type}

namespace Stacked

/-! ## Restoring the stack -/

/-- The computation does what the other one does, and leaves the stack as it was. -/
def Restores (stack : List String) (x : Stacked α) (y : Compile α) : Prop :=
  x.run.run stack = (fun result => (result, stack)) <$> y.run

namespace Restores

variable {stack : List String}

theorem pure (a : α) : Restores stack (pure a) (pure a) := rfl

theorem throw (e : Error) : Restores stack (throw e : Stacked α) (throw e) := rfl

theorem lift (t : Traced α) : Restores stack (liftM t) (liftM t) := rfl

theorem ofExcept (r : Except Error α) : Restores stack (liftExcept r) (liftExcept r) := by
  cases r with
  | ok a => exact .pure a
  | error e => exact .throw e

theorem bind {x : Stacked α} {y : Compile α} {f : α → Stacked β} {g : α → Compile β}
    (hx : Restores stack x y) (hf : ∀ a, Restores stack (f a) (g a)) :
    Restores stack (x >>= f) (y >>= g) := by
  have hcont : ∀ r : Except Error α, (ExceptT.bindCont f r).run stack =
      (fun result => (result, stack)) <$> ExceptT.bindCont g r := by
    intro r
    cases r with
    | error e => rfl
    | ok a => exact hf a
  have hsplit : (x >>= f).run.run stack =
      x.run.run stack >>= fun p => (ExceptT.bindCont f p.1).run p.2 := rfl
  have hsplit' : (y >>= g).run = y.run >>= ExceptT.bindCont g := rfl
  unfold Restores at hx ⊢
  rw [hsplit, hx, bind_map_left, hsplit', map_bind]
  simp only [hcont]

theorem map {x : Stacked α} {y : Compile α} (hx : Restores stack x y) (f : α → β) :
    Restores stack (f <$> x) (f <$> y) := by
  rw [map_eq_pure_bind, map_eq_pure_bind]
  exact hx.bind fun a => .pure (f a)

theorem mapM {f : α → Stacked β} {g : α → Compile β} (hf : ∀ a, Restores stack (f a) (g a))
    (l : List α) : Restores stack (l.mapM f) (l.mapM g) := by
  induction l with
  | nil => exact .pure []
  | cons a l ih =>
    rw [List.mapM_cons, List.mapM_cons]
    exact (hf a).bind fun b => ih.bind fun bs => .pure (b :: bs)

theorem optionMapM {f : α → Stacked β} {g : α → Compile β} (hf : ∀ a, Restores stack (f a) (g a))
    (o : Option α) : Restores stack (o.mapM f) (o.mapM g) := by
  cases o with
  | none => exact .pure none
  | some a => exact (hf a).map some

/-- What is pushed is popped. -/
theorem pushed {name : String} {body : Stacked α} {y : Compile α}
    (hbody : Restores (stack ++ [name]) body y) : Restores stack (pushed name body) y := by
  have hrun : (Stacked.pushed name body).run.run stack = body.run.run (stack ++ [name]) >>=
      fun p => (liftExcept p.1 : Stacked α).run.run p.2.dropLast := rfl
  have hlift : ∀ r : Except Error α,
      (liftExcept r : Stacked α).run.run stack = Pure.pure (r, stack) := by
    intro r
    cases r <;> rfl
  unfold Restores at hbody ⊢
  rw [hrun, hbody, bind_map_left, map_eq_pure_bind]
  simp only [List.dropLast_concat, hlift]

theorem run_writeOut (stack : List String) (name : String) (body : Stacked α) :
    (writeOut name body).run.run stack =
      (if name ∈ stack then MonadExcept.throw (.recursion (stack ++ [name]))
        else Stacked.pushed name body : Stacked α).run.run stack := rfl

theorem writeOut_new {name : String} (hname : name ∉ stack) {body : Stacked α} {y : Compile α}
    (hbody : Restores (stack ++ [name]) body y) : Restores stack (writeOut name body) y := by
  unfold Restores
  rw [run_writeOut, if_neg hname]
  exact pushed hbody

/-- A name that is on the stack is an error, and stays there. -/
theorem writeOut_again {name : String} (hname : name ∈ stack) (body : Stacked α) :
    Restores stack (writeOut name body) (MonadExcept.throw (.recursion (stack ++ [name]))) := by
  unfold Restores
  rw [run_writeOut, if_pos hname]
  rfl

end Restores

/-! ## Schemas -/

section Schemas

variable (c : Catalog)

theorem objectSchema_eq (levels : Nat) (s : StructDescriptor) :
    objectSchema c levels s = propertySchemas c levels (.typed "object") s.fields := by
  cases s
  rw [objectSchema]

theorem propertySchemas_nil (levels : Nat) (start : Schema) :
    propertySchemas c levels start [] = return start := by
  rw [propertySchemas.eq_def]

/-- A field adds the property of its name, if it has one in schemas. -/
theorem propertySchemas_cons (levels : Nat) (start : Schema) (f : Field) (rest : List Field) :
    propertySchemas c levels start (f :: rest) = match f.propertyName? with
      | none => propertySchemas c levels start rest
      | some name => typeSchema c levels f.type >>= fun value => propertySchemas c levels
          (Catalog.addProperty start name (Catalog.require name f.tag (Catalog.describe f.doc value)))
          rest := by
  obtain ⟨fieldName, type, tag, doc, exported⟩ := f
  rw [propertySchemas.eq_def]
  cases exported with
  | false => rfl
  | true =>
    rw [Field.propertyName?, if_pos rfl]
    dsimp only
    cases tag.schemaName? <;> rfl

theorem typeSchema_inline {n : TypeName} {s : StructDescriptor} (hd : n.isDateTime = false)
    (hn : c.get? n = some s) (hs : s.isDefinition = false) (below : Nat) :
    typeSchema c (below + 1) (.named n) = writeOut s.name (objectSchema c below s) := by
  rw [typeSchema, if_neg (by simp [hd]), hn]
  dsimp only
  rw [if_neg (by simp [hs])]

theorem typeSchema_again {n : TypeName} {s : StructDescriptor} (hd : n.isDateTime = false)
    (hn : c.get? n = some s) (hs : s.isDefinition = false) (levels : Nat) :
    ∃ body, typeSchema c levels (.named n) = writeOut s.name body := by
  cases levels with
  | zero =>
    rw [typeSchema, if_neg (by simp [hd]), hn]
    dsimp only
    rw [if_neg (by simp [hs])]
    exact ⟨_, rfl⟩
  | succ below => exact ⟨_, typeSchema_inline c hd hn hs below⟩

mutual

theorem restores_objectSchema {stack : List String} {levels : Nat}
    (h : c.remaining stack ≤ levels) (s : StructDescriptor) :
    Restores stack (objectSchema c levels s) (c.objectSchema stack s) := by
  match s with
  | ⟨name, fields, isDefinition, embeds⟩ =>
    rw [objectSchema_eq, Catalog.objectSchema_eq]
    exact restores_propertySchemas h _ fields
termination_by (levels, sizeOf s)

theorem restores_propertySchemas {stack : List String} {levels : Nat}
    (h : c.remaining stack ≤ levels) (start : Schema) (fields : List Field) :
    Restores stack (propertySchemas c levels start fields)
      (c.propertySchemas stack start fields) := by
  match fields with
  | [] =>
    rw [propertySchemas_nil, Catalog.propertySchemas_nil]
    exact .pure start
  | ⟨fieldName, type, tag, doc, exported⟩ :: rest =>
    rw [propertySchemas_cons, Catalog.propertySchemas_cons]
    cases Field.propertyName? ⟨fieldName, type, tag, doc, exported⟩ with
    | none => exact restores_propertySchemas h start rest
    | some name =>
      exact (restores_typeSchema h type).bind fun value => restores_propertySchemas h _ rest
termination_by (levels, sizeOf fields)

theorem restores_typeSchema {stack : List String} {levels : Nat}
    (h : c.remaining stack ≤ levels) (t : FieldType) :
    Restores stack (typeSchema c levels t) (c.typeSchema stack t) := by
  match t with
  | .scalar s =>
    rw [typeSchema, Catalog.typeSchema]
    exact .pure _
  | .named n =>
    cases hd : n.isDateTime with
    | true =>
      rw [typeSchema, if_pos hd, Catalog.typeSchema_dateTime c stack hd]
      exact .pure _
    | false =>
      match hn : c.get? n with
      | none =>
        rw [typeSchema, if_neg (by simp [hd]), hn, Catalog.typeSchema_unknown c stack hd hn]
        exact (Restores.lift _).bind fun _ => .pure _
      | some s =>
        cases hs : s.isDefinition with
        | true =>
          rw [typeSchema, if_neg (by simp [hd]), hn, Catalog.typeSchema_reference c stack hd hn hs]
          dsimp only
          rw [if_pos hs]
          exact .pure _
        | false =>
          by_cases hstack : s.name ∈ stack
          · obtain ⟨body, hbody⟩ := typeSchema_again c hd hn hs levels
            rw [hbody, Catalog.typeSchema_again c stack hd hn hs hstack]
            exact .writeOut_again hstack body
          · -- one struct fewer remains behind the new name, so there is a level for it
            have hless := Catalog.remaining_append_lt (Catalog.name_mem_of_get? hn) hstack
            obtain ⟨below, rfl⟩ : ∃ below, levels = below + 1 :=
              Nat.exists_eq_add_one.2 (by omega)
            have hbelow : c.remaining (stack ++ [s.name]) ≤ below := by omega
            rw [typeSchema_inline c hd hn hs, Catalog.typeSchema_inline c stack hd hn hs hstack]
            exact .writeOut_new hstack (restores_objectSchema hbelow s)
  | .map _ =>
    rw [typeSchema, Catalog.typeSchema]
    exact .pure _
  | .array none =>
    rw [typeSchema, Catalog.typeSchema]
    exact .pure _
  | .array (some element) =>
    cases ht : element.isByte with
    | true =>
      rw [typeSchema, if_pos ht, Catalog.typeSchema_bytes c stack ht]
      exact .pure _
    | false =>
      rw [typeSchema, if_neg (by simp [ht]), Catalog.typeSchema_array c stack ht, map_eq_pure_bind]
      exact (restores_typeSchema h element).bind fun schema => .pure _
  | .struct inner =>
    rw [typeSchema, Catalog.typeSchema]
    exact restores_objectSchema h inner
termination_by (levels, sizeOf t)

end

theorem remaining_le_size (stack : List String) : c.remaining stack ≤ c.size := by
  have hlength : c.size = c.names.length := (List.length_map _).symm
  rw [hlength]
  exact List.length_filter_le _ _

theorem restores_inlineSchema (s : StructDescriptor) (name : Option String) :
    Restores [] (inlineSchema c s name) (c.inlineSchema s name) := by
  cases name with
  | none => exact restores_objectSchema c (remaining_le_size c []) s
  | some name =>
    exact .writeOut_new List.not_mem_nil (restores_objectSchema c (remaining_le_size c [name]) s)

theorem restores_structSchema (s : StructDescriptor) (name : Option String) :
    Restores [] (c.stackCompiler.structSchema s name) (c.structSchema s name) := by
  cases hs : s.isDefinition with
  | false =>
    have hstack : c.stackCompiler.structSchema s name = inlineSchema c s name := by
      unfold SchemaCompiler.structSchema
      rw [hs]
      cases name <;> rfl
    rw [hstack, Catalog.structSchema_plain c hs]
    exact restores_inlineSchema c s name
  | true =>
    cases name with
    | none => exact restores_inlineSchema c s none
    | some name =>
      have hstack : c.stackCompiler.structSchema s (some name) =
          return Schema.referTo (definitionId name) := by
        unfold SchemaCompiler.structSchema
        rw [hs]
      rw [hstack, Catalog.structSchema_definition c hs]
      exact .pure _

theorem restores_fieldSchema (f : Field) :
    Restores [] (c.stackCompiler.fieldSchema f) (c.fieldSchema f) :=
  (restores_typeSchema c (remaining_le_size c []) f.type).bind fun _ => .pure _

theorem restores_definition (s : StructDescriptor) :
    Restores [] (c.stackCompiler.definition s) (c.definition s) := by
  have hinline := restores_inlineSchema c s (some s.name)
  refine (Restores.lift _).bind fun _ => hinline.bind fun schema => ?_
  exact .pure (Definition.mk _ _ schema)

theorem restores_definitions : Restores [] c.stackCompiler.definitions c.definitions :=
  (Restores.mapM (restores_definition c) _).bind fun _ => (Restores.lift _).bind fun _ => .pure _

end Schemas

/-! ## Routes -/

section Routes

variable (c : Catalog)

theorem restores_parameters (owner : String) (request : StructDescriptor) :
    Restores [] (c.stackCompiler.parameters owner request) (c.parameters owner request) := by
  have hparameter : ∀ f place, Restores [] (c.stackCompiler.parameter? owner request.name f place)
      (c.parameter? owner request.name f place) := by
    intro f place
    unfold SchemaCompiler.parameter? Catalog.parameter?
    cases f.tag.lookup? place.name with
    | none => exact .pure none
    | some name =>
      by_cases hempty : name.isEmpty = true
      · dsimp only
        rw [if_pos hempty, if_pos hempty]
        exact (Restores.lift _).bind fun _ => .pure none
      · dsimp only
        rw [if_neg hempty, if_neg hempty]
        refine (restores_fieldSchema c f).bind fun schema => ?_
        exact .pure (some (place, Parameter.mk name schema _))
  exact (Restores.mapM (fun f => Restores.mapM (hparameter f) _) _).bind fun _ => .pure _

theorem restores_route (file group : String) (d : MethodDecl) :
    Restores [] (c.stackCompiler.route file group d) (c.route file group d) := by
  have hbody : ∀ s, Restores [] (c.stackCompiler.bodySchema s) (c.bodySchema s) :=
    fun s => restores_structSchema c s (some s.name)
  unfold SchemaCompiler.route Catalog.route
  refine (Restores.ofExcept _).bind fun doc => ?_
  cases doc.route with
  | none => exact .throw _
  | some declared =>
    refine (Restores.ofExcept _).bind fun signature => ?_
    refine (Restores.lift _).bind fun request => (Restores.lift _).bind fun answer => ?_
    have hparameters : Restores []
        (request.elim (return {}) (c.stackCompiler.parameters (group ++ "." ++ plainName d.name)))
        (request.elim (return {}) (c.parameters (group ++ "." ++ plainName d.name))) := by
      cases request with
      | none => exact .pure _
      | some s => exact restores_parameters c _ s
    refine hparameters.bind fun parameters => ?_
    refine (Restores.optionMapM hbody _).bind fun requestBody => ?_
    refine (Restores.optionMapM hbody answer).bind fun response => ?_
    exact (Restores.lift _).bind fun _ => .pure _

theorem restores_group (file : String) (t : TraitDecl) :
    Restores [] (c.stackCompiler.group file t) (c.group file t) := by
  unfold SchemaCompiler.group Catalog.group
  refine (Restores.lift _).bind fun _ => (Restores.ofExcept _).bind fun doc => ?_
  exact (Restores.mapM (restores_route c file _) _).bind fun routes => .pure _

theorem restores_groups (files : List SourceFile) :
    Restores [] (c.stackCompiler.groups files) (c.groups files) := by
  have hfile : ∀ f : SourceFile, Restores []
      ((f.traits.filter Catalog.isService).mapM (c.stackCompiler.group f.path))
      ((f.traits.filter Catalog.isService).mapM (c.group f.path)) :=
    fun f => .mapM (restores_group c f.path) _
  unfold SchemaCompiler.groups Catalog.groups
  exact (Restores.mapM hfile files).bind fun groups => (Restores.lift _).bind fun _ => .pure _

/-- Every call restores the empty stack. -/
theorem restores_answer (call : CompilerCall) :
    Restores [] (c.stackCompiler.answer call) (c.compiler.answer call) := by
  cases call with
  | definitions => exact (restores_definitions c).bind fun _ => .pure _
  | struct s name => exact (restores_structSchema c s name).bind fun _ => .pure _
  | field f => exact (restores_fieldSchema c f).bind fun _ => .pure _
  | routes files => exact (restores_groups c files).bind fun _ => .pure _

end Routes

end Stacked

/-! ## Sessions -/

namespace Catalog

variable (c : Catalog)

/-- The reports of earlier calls do not matter for an answer. -/
theorem answer_steady (call : CompilerCall) : (c.compiler.answer call).Steady := by
  cases call with
  | definitions => exact (steady_definitions c).bind fun _ => steady_pure _
  | struct s name => exact (steady_structSchema c s name).bind fun _ => steady_pure _
  | field f => exact (steady_fieldSchema c f).bind fun _ => steady_pure _
  | routes files => exact (groups_steady c files).bind fun _ => steady_pure _

theorem session_cons (call : CompilerCall) (calls : List CompilerCall) :
    (c.session (call :: calls)).run [] = (c.compiler.answer call).run >>= fun answer =>
      (fun rest => ((answer, []) :: rest.1, rest.2)) <$> (c.session calls).run [] := by
  have hanswer : (c.stackCompiler.answer call).run.run [] =
      (fun result => (result, [])) <$> (c.compiler.answer call).run :=
    Stacked.restores_answer c call
  rw [session, List.mapM_cons]
  simp only [bind_assoc, StateT.run_bind, hanswer, bind_map_left]
  rfl

/-- A session answers every call as a new compiler does, and the stack is empty behind each. -/
theorem value_session (calls : List CompilerCall) :
    ((c.session calls).run []).Steady ∧ ((c.session calls).run []).value =
      (calls.map fun call => ((c.compiler.answer call).result, []), []) := by
  induction calls with
  | nil => exact ⟨Traced.steady_pure _, rfl⟩
  | cons call calls ih =>
    obtain ⟨hsteady, hvalue⟩ := ih
    have hcall : ((c.compiler.answer call).run : Traced _).Steady :=
      Traced.steady_run (answer_steady c call)
    have hrest : ∀ answer : Except Error CompilerAnswer, (Functor.map
        (fun rest : List (Except Error CompilerAnswer × List String) × List String =>
          ((answer, []) :: rest.1, rest.2)) ((c.session calls).run [])).Steady := by
      intro answer
      rw [map_eq_pure_bind]
      exact hsteady.bind fun _ => Traced.steady_pure _
    rw [session_cons]
    refine ⟨hcall.bind hrest, ?_⟩
    rw [Traced.value_bind hrest, map_eq_pure_bind,
      Traced.value_bind fun _ => Traced.steady_pure _, hvalue]
    rfl

/-- A compiler that keeps a stack has no memory: after every call of every session its stack is empty,
whether the call failed or not, and the call gives what a new compiler gives. That is what the
compiler gives that is told the paths. -/
theorem sessions_have_no_memory :
    (∀ calls, ((c.session calls).run []).value =
      (calls.map fun call => (((c.stackCompiler.answer call).run.run []).value.1, []), [])) ∧
    (∀ call, ((c.stackCompiler.answer call).run.run []).value =
      ((c.compiler.answer call).result, [])) ∧
    c.compiler.definitions = c.definitions ∧ c.compiler.structSchema = c.structSchema ∧
    c.compiler.fieldSchema = c.fieldSchema ∧ c.compiler.groups = c.groups := by
  have hanswer : ∀ call, ((c.stackCompiler.answer call).run.run []).value =
      ((c.compiler.answer call).result, []) := by
    intro call
    have hrestores : (c.stackCompiler.answer call).run.run [] =
        (fun result => (result, [])) <$> (c.compiler.answer call).run :=
      Stacked.restores_answer c call
    rw [hrestores]
    rfl
  refine ⟨fun calls => ?_, hanswer, rfl, rfl, rfl, rfl⟩
  rw [(value_session c calls).2]
  simp only [hanswer]

end Catalog

end ApiDecl
