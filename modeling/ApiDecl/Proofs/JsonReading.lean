import ApiDecl.Proofs.JsonText
import Mathlib.Data.List.TakeWhile

/-!
# Proofs: JSON values are read as they are written

A value without floats that is written in any layout is read as the node it is written as
(`reads_of_noFloat`, `read?_render`), and the value of that node is the value itself, provided that
it is not nested too deeply and that the members of its objects are in order (`value?_node`).
-/

namespace ApiDecl.Json

/-- A number as it is written. -/
def Number.spelling (n : Number) : NumberSpelling := ((readNumber n.text).map (·.1)).getD default

mutual

/-- A value as it is written. -/
def node : Json → Node
  | null => .null
  | bool b => .bool b
  | number n => .number n.spelling
  | string s => .string (unitsOf s)
  | array elements => .array (elementNodes elements)
  | object members => .object (memberNodes members)

/-- Elements of a list as they are written. -/
def elementNodes : List Json → List Node
  | [] => []
  | e :: rest => e.node :: elementNodes rest

/-- Members of an object as they are written. -/
def memberNodes : List (String × Json) → List (List TextUnit × Node)
  | [] => []
  | (name, value) :: rest => (unitsOf name, value.node) :: memberNodes rest

end

theorem elementNodes_eq_map (es : List Json) : elementNodes es = es.map node := by
  induction es with
  | nil => rfl
  | cons e es ih => rw [elementNodes, ih, List.map_cons]

theorem memberNodes_eq_map (ms : List (String × Json)) :
    memberNodes ms = ms.map fun m => (unitsOf m.1, m.2.node) := by
  induction ms with
  | nil => rfl
  | cons m ms ih => rw [memberNodes, ih, List.map_cons]

/-- No number of the value is a float. -/
inductive NoFloat : Json → Prop where
  | null : NoFloat null
  | bool (b : Bool) : NoFloat (bool b)
  | whole (n : Int) (h : IsWhole n) : NoFloat (number (.whole n h))
  | string (s : String) : NoFloat (string s)
  | array {es : List Json} (h : ∀ e ∈ es, NoFloat e) : NoFloat (array es)
  | object {ms : List (String × Json)} (h : ∀ m ∈ ms, NoFloat m.2) : NoFloat (object ms)

/-! ## Between the parts -/

theorem skipBlanks_lineBreak (layout : Layout) (cs : List Char) :
    skipBlanks (layout.lineBreak ++ cs) = skipBlanks cs := by
  cases layout with
  | compact => rfl
  | indented level =>
    have hblank : ∀ c ∈ (Layout.indented level).lineBreak, isBlank c = true := by
      intro c hc
      rcases List.mem_cons.1 hc with rfl | hc
      · decide
      · rw [List.eq_of_mem_replicate hc]
        decide
    rw [skipBlanks, List.dropWhile_append_of_pos hblank, skipBlanks]

theorem skipBlanks_cons {c : Char} (hc : isBlank c = false) (cs : List Char) :
    skipBlanks (c :: cs) = c :: cs := by
  simp [skipBlanks, hc]

theorem readNode_congr {cs cs' : List Char} (h : skipBlanks cs = skipBlanks cs') (steps : Nat) :
    readNode steps cs = readNode steps cs' := by
  cases steps with
  | zero => rfl
  | succ steps => rw [readNode, readNode, h]

theorem readElements_congr {cs cs' : List Char} (h : skipBlanks cs = skipBlanks cs') (steps : Nat) :
    readElements steps cs = readElements steps cs' := by
  cases steps with
  | zero => rfl
  | succ steps => rw [readElements, readElements, readNode_congr h]

theorem readMembers_congr {cs cs' : List Char} (h : skipBlanks cs = skipBlanks cs') (steps : Nat) :
    readMembers steps cs = readMembers steps cs' := by
  cases steps with
  | zero => rfl
  | succ steps => rw [readMembers, readMembers, h]

theorem endsNumber_cons {c : Char} (hc : c = ',' ∨ c = ']' ∨ c = '}' ∨ c = '\n') (cs : List Char) :
    EndsNumber (c :: cs) := by
  intro d hd
  obtain rfl := Option.some.inj hd
  rcases hc with rfl | rfl | rfl | rfl <;> decide

theorem endsNumber_close (layout : Layout) {c : Char} (hc : c = ']' ∨ c = '}') (cs : List Char) :
    EndsNumber (layout.lineBreak ++ c :: cs) := by
  cases layout with
  | compact => exact endsNumber_cons (.inr (hc.imp_right .inl)) cs
  | indented level => exact endsNumber_cons (.inr (.inr (.inr rfl))) _

/-! ## Numbers and words -/

theorem toString_starts (n : Int) :
    ∃ c cs, (toString n).toList = c :: cs ∧ (c = '-' ∨ c.isDigit = true) := by
  rw [toList_toString]
  by_cases hn : n < 0
  · rw [if_pos hn]
    exact ⟨'-', _, rfl, .inl rfl⟩
  · rw [if_neg hn]
    cases hdigits : Nat.toDigits 10 n.natAbs with
    | nil => exact absurd hdigits Nat.toDigits_ne_nil
    | cons d ds => exact ⟨d, ds, rfl, .inr (isDigit_of_mem (hdigits ▸ List.mem_cons_self))⟩

theorem isBlank_number {c : Char} (hc : c = '-' ∨ c.isDigit = true) : isBlank c = false := by
  cases hb : isBlank c with
  | false => rfl
  | true =>
    simp only [isBlank, Bool.or_eq_true, beq_iff_eq] at hb
    rcases hb with ((rfl | rfl) | rfl) | rfl <;> exact absurd hc (by decide)

theorem spelling_whole (n : Int) (h : IsWhole n) :
    (Number.whole n h).spelling = wholeSpelling n := by
  have hends : EndsNumber [] := fun c hc => by cases hc
  have hread := readNumber_whole n hends
  rw [List.append_nil] at hread
  rw [Number.spelling, Number.text, hread]
  rfl

theorem readWord_append (word : String) {value : Node} {cs : List Char} (hword : word.toList = cs)
    (rest : List Char) : readWord word value (cs ++ rest) = some (value, rest) := by
  subst hword
  simp [readWord]

/-! ## Written values -/

/-- However the value is written, it is read as its node. -/
def Reads (j : Json) : Prop :=
  ∀ (layout : Layout) (steps : Nat) (rest : List Char), (render layout j).length ≤ steps →
    EndsNumber rest → readNode steps (render layout j ++ rest) = some (j.node, rest)

/-- A value starts with a character that is no blank and closes no list. -/
theorem render_starts {j : Json} (hj : j.NoFloat) (layout : Layout) :
    ∃ c cs, render layout j = c :: cs ∧ isBlank c = false ∧ c ≠ ']' := by
  cases hj with
  | null => exact ⟨'n', _, rfl, by decide, by decide⟩
  | bool b => cases b <;> exact ⟨_, _, rfl, by decide, by decide⟩
  | whole n h =>
    obtain ⟨c, cs, htext, hc⟩ := toString_starts n
    refine ⟨c, cs, htext, isBlank_number hc, ?_⟩
    rintro rfl
    exact absurd hc (by decide)
  | string s => exact ⟨'"', _, rfl, by decide, by decide⟩
  | @array es h => cases es <;> exact ⟨'[', _, rfl, by decide, by decide⟩
  | @object ms h => cases ms <;> exact ⟨'{', _, rfl, by decide, by decide⟩

/-- A value is not empty, so there is a step for it. -/
theorem reads_of_succ {j : Json} (hj : j.NoFloat)
    (h : ∀ (layout : Layout) (steps : Nat) (rest : List Char),
      (render layout j).length ≤ steps + 1 → EndsNumber rest →
        readNode (steps + 1) (render layout j ++ rest) = some (j.node, rest)) : j.Reads := by
  intro layout steps rest hsteps hrest
  obtain ⟨c, cs, hstart, -, -⟩ := render_starts hj layout
  have hpos : 0 < (render layout j).length := by rw [hstart]; exact Nat.succ_pos _
  cases steps with
  | zero => omega
  | succ steps => exact h layout steps rest hsteps hrest

theorem reads_whole (n : Int) (h : IsWhole n) : (number (.whole n h)).Reads := by
  refine reads_of_succ (.whole n h) fun layout steps rest _ hrest => ?_
  obtain ⟨c, cs, htext, hc⟩ := toString_starts n
  have hread := readNumber_whole n hrest
  rw [htext, List.cons_append] at hread
  rw [render, Number.text, node, spelling_whole n h, htext, List.cons_append, readNode,
    skipBlanks_cons (isBlank_number hc)]
  -- neither a minus sign nor a digit starts any other value
  split
  all_goals try
    next heq =>
      rw [(List.cons.inj heq).1] at hc
      exact absurd hc (by decide)
  rw [hread]
  rfl

theorem reads_string (s : String) : (string s).Reads := by
  refine reads_of_succ (.string s) fun layout steps rest _ _ => ?_
  have htext : render layout (string s) ++ rest =
      '"' :: (s.toList.flatMap escapeChar ++ '"' :: rest) := by
    simp [render, quote]
  rw [htext, readNode, skipBlanks_cons (by decide)]
  simp only [readUnits_escaped]
  rfl

theorem readElements_render {layout : Layout} {e : Json} {es : List Json}
    (hes : ∀ a ∈ e :: es, a.Reads) (outer : Layout) {steps : Nat}
    (hsteps : (render layout e ++ renderElements layout es).length < steps) (tail : List Char) :
    readElements steps
        (render layout e ++ (renderElements layout es ++ (outer.lineBreak ++ ']' :: tail))) =
      some ((e :: es).map node, tail) := by
  induction es generalizing e steps with
  | nil =>
    obtain ⟨s, rfl⟩ : ∃ s, steps = s + 1 := ⟨steps - 1, by omega⟩
    have hfirst := hes e List.mem_cons_self layout s (outer.lineBreak ++ ']' :: tail)
      (by simp [renderElements] at hsteps; omega) (endsNumber_close outer (.inl rfl) tail)
    rw [renderElements, List.nil_append, readElements, hfirst]
    simp [skipBlanks_lineBreak, skipBlanks_cons (show isBlank ']' = false by decide)]
  | cons e' es ih =>
    obtain ⟨s, rfl⟩ : ∃ s, steps = s + 1 := ⟨steps - 1, by omega⟩
    have hcons : renderElements layout (e' :: es) =
        ',' :: (layout.lineBreak ++ (render layout e' ++ renderElements layout es)) := by
      simp [renderElements]
    have hlength : (render layout e).length ≤ s ∧
        (render layout e' ++ renderElements layout es).length < s := by
      simp [hcons] at hsteps ⊢
      omega
    have hfirst := hes e List.mem_cons_self layout s
      (renderElements layout (e' :: es) ++ (outer.lineBreak ++ ']' :: tail))
      hlength.1 (by rw [hcons]; exact endsNumber_cons (.inl rfl) _)
    have hothers := ih (fun a ha => hes a (List.mem_cons_of_mem _ ha)) hlength.2
    rw [readElements, hfirst, hcons]
    simp only [Option.bind_eq_bind, Option.bind_some, List.cons_append, List.append_assoc,
      skipBlanks_cons (show isBlank ',' = false by decide),
      readElements_congr (skipBlanks_lineBreak layout _), hothers]
    rfl

theorem reads_array {es : List Json} (h : ∀ e ∈ es, e.NoFloat) (hes : ∀ e ∈ es, e.Reads) :
    (array es).Reads := by
  refine reads_of_succ (.array h) fun layout steps rest hsteps _ => ?_
  cases es with
  | nil => rfl
  | cons e es =>
    obtain ⟨c, cs, hstart, hblank, hclose⟩ := render_starts (h e List.mem_cons_self) layout.deeper
    have hlength : (render layout.deeper e ++ renderElements layout.deeper es).length < steps := by
      simp [render] at hsteps ⊢
      omega
    have hread := readElements_render hes layout hlength rest
    have htext : render layout (array (e :: es)) ++ rest =
        '[' :: (layout.deeper.lineBreak ++ (render layout.deeper e ++
          (renderElements layout.deeper es ++ (layout.lineBreak ++ ']' :: rest)))) := by
      simp [render]
    rw [htext, readNode, skipBlanks_cons (by decide)]
    simp only [skipBlanks_lineBreak]
    rw [hstart, List.cons_append] at hread ⊢
    rw [skipBlanks_cons hblank]
    split
    · next heq => exact absurd (List.cons.inj heq).1 hclose
    · rw [hread, node, elementNodes_eq_map]
      rfl

/-- A member of an object as it is written, the comma in front apart. -/
def renderMember (layout : Layout) (m : String × Json) : List Char :=
  quote m.1 ++ (layout.colon ++ render layout m.2)

theorem colon_deeper (layout : Layout) : layout.deeper.colon = layout.colon := by
  cases layout <;> rfl

theorem readNode_colon (layout : Layout) (steps : Nat) (cs : List Char) :
    ∃ cs', layout.colon ++ cs = ':' :: cs' ∧ readNode steps cs' = readNode steps cs := by
  cases layout with
  | compact => exact ⟨cs, rfl, rfl⟩
  | indented level =>
    exact ⟨' ' :: cs, rfl, readNode_congr (List.dropWhile_cons_of_pos (by decide)) steps⟩

/-- A member is read up to its value, and what follows the value says how it goes on. -/
theorem readMembers_member {layout : Layout} {m : String × Json} {steps : Nat} {behind : List Char}
    (hvalue : readNode steps (render layout m.2 ++ behind) = some (m.2.node, behind)) :
    readMembers (steps + 1) (renderMember layout m ++ behind) =
      match skipBlanks behind with
      | '}' :: rest => some ([(unitsOf m.1, m.2.node)], rest)
      | ',' :: rest => do
        let (others, rest) ← readMembers steps rest
        return ((unitsOf m.1, m.2.node) :: others, rest)
      | _ => none := by
  obtain ⟨cs, hcolon, hread⟩ := readNode_colon layout steps (render layout m.2 ++ behind)
  have htext : renderMember layout m ++ behind =
      '"' :: (m.1.toList.flatMap escapeChar ++ '"' :: ':' :: cs) := by
    simp [renderMember, quote, ← hcolon]
  have hname : readUnits (m.1.toList.flatMap escapeChar ++ '"' :: ':' :: cs) =
      some (unitsOf m.1, ':' :: cs) := readUnits_escaped _ _
  rw [htext, readMembers, skipBlanks_cons (by decide)]
  simp only [hname, Option.bind_eq_bind, Option.bind_some,
    skipBlanks_cons (show isBlank ':' = false by decide), hread.trans hvalue]
  rfl

theorem readMembers_render {layout : Layout} {m : String × Json} {ms : List (String × Json)}
    (hms : ∀ a ∈ m :: ms, a.2.Reads) (outer : Layout) {steps : Nat}
    (hsteps : (renderMember layout m ++ renderMembers layout ms).length < steps)
    (tail : List Char) :
    readMembers steps
        (renderMember layout m ++ (renderMembers layout ms ++ (outer.lineBreak ++ '}' :: tail))) =
      some ((m :: ms).map fun m => (unitsOf m.1, m.2.node), tail) := by
  induction ms generalizing m steps with
  | nil =>
    obtain ⟨s, rfl⟩ : ∃ s, steps = s + 1 := ⟨steps - 1, by omega⟩
    have hvalue := hms m List.mem_cons_self layout s (outer.lineBreak ++ '}' :: tail)
      (by simp [renderMember] at hsteps; omega) (endsNumber_close outer (.inr rfl) tail)
    rw [renderMembers, List.nil_append, readMembers_member hvalue, skipBlanks_lineBreak,
      skipBlanks_cons (by decide)]
    rfl
  | cons m' ms ih =>
    obtain ⟨s, rfl⟩ : ∃ s, steps = s + 1 := ⟨steps - 1, by omega⟩
    have hcons : renderMembers layout (m' :: ms) =
        ',' :: (layout.lineBreak ++ (renderMember layout m' ++ renderMembers layout ms)) := by
      simp [renderMembers, renderMember]
    have hlength : (render layout m.2).length ≤ s ∧
        (renderMember layout m' ++ renderMembers layout ms).length < s := by
      simp [hcons, renderMember] at hsteps ⊢
      omega
    have hvalue := hms m List.mem_cons_self layout s
      (renderMembers layout (m' :: ms) ++ (outer.lineBreak ++ '}' :: tail))
      hlength.1 (by rw [hcons]; exact endsNumber_cons (.inl rfl) _)
    have hothers := ih (fun a ha => hms a (List.mem_cons_of_mem _ ha)) hlength.2
    rw [readMembers_member hvalue, hcons, List.cons_append, skipBlanks_cons (by decide)]
    simp only [List.append_assoc, readMembers_congr (skipBlanks_lineBreak layout _), hothers]
    rfl

theorem reads_object {ms : List (String × Json)} (h : ∀ m ∈ ms, m.2.NoFloat)
    (hms : ∀ m ∈ ms, m.2.Reads) : (object ms).Reads := by
  refine reads_of_succ (.object h) fun layout steps rest hsteps _ => ?_
  cases ms with
  | nil => rfl
  | cons m ms =>
    have hlength :
        (renderMember layout.deeper m ++ renderMembers layout.deeper ms).length < steps := by
      simp [render, renderMember, colon_deeper] at hsteps ⊢
      omega
    have hread := readMembers_render hms layout hlength rest
    have htext : render layout (object (m :: ms)) ++ rest =
        '{' :: (layout.deeper.lineBreak ++ (renderMember layout.deeper m ++
          (renderMembers layout.deeper ms ++ (layout.lineBreak ++ '}' :: rest)))) := by
      simp [render, renderMember, colon_deeper]
    obtain ⟨cs, hquote⟩ : ∃ cs, renderMember layout.deeper m = '"' :: cs := ⟨_, rfl⟩
    rw [htext, readNode, skipBlanks_cons (by decide)]
    simp only [skipBlanks_lineBreak]
    rw [hquote, List.cons_append] at hread ⊢
    rw [skipBlanks_cons (by decide)]
    split
    · next heq => exact absurd (List.cons.inj heq).1 (by decide)
    · rw [hread, node, memberNodes_eq_map]
      rfl

/-- A value without floats is read as it is written. -/
theorem reads_of_noFloat {j : Json} (hj : j.NoFloat) : j.Reads := by
  induction hj with
  | null =>
    exact reads_of_succ .null fun _ _ rest _ _ => readWord_append "null" rfl rest
  | bool b =>
    refine reads_of_succ (.bool b) fun _ _ rest _ _ => ?_
    cases b with
    | true => exact readWord_append "true" rfl rest
    | false => exact readWord_append "false" rfl rest
  | whole n h => exact reads_whole n h
  | string s => exact reads_string s
  | array h ih => exact reads_array h ih
  | object h ih => exact reads_object h ih

/-- The text of a value without floats, with blanks behind it, is read as its node. -/
theorem read?_render {j : Json} (hj : j.NoFloat) (layout : Layout) {blanks : List Char}
    (hblanks : ∀ c ∈ blanks, isBlank c = true) :
    Node.read? (String.ofList (render layout j ++ blanks)) = some j.node := by
  have hends : EndsNumber blanks := by
    intro c hc
    have hblank := hblanks c (List.mem_of_mem_head? hc)
    simp only [isBlank, Bool.or_eq_true, beq_iff_eq] at hblank
    rcases hblank with ((rfl | rfl) | rfl) | rfl <;> decide
  have hread := reads_of_noFloat hj layout (2 * (render layout j ++ blanks).length + 2) blanks
    (by rw [List.length_append]; omega) hends
  have hskip : skipBlanks blanks = [] := List.dropWhile_eq_nil_iff.2 hblanks
  unfold Node.read?
  rw [String.toList_ofList]
  simp only [hread, Option.bind_eq_bind, Option.bind_some, hskip]
  rfl

/-! ## Values of nodes -/

/-- The members of all objects in the value are in the order of their names. -/
inductive Ordered : Json → Prop where
  | null : Ordered null
  | bool (b : Bool) : Ordered (bool b)
  | number (n : Number) : Ordered (number n)
  | string (s : String) : Ordered (string s)
  | array {es : List Json} (h : ∀ e ∈ es, Ordered e) : Ordered (array es)
  | object {ms : List (String × Json)} (hnames : (ms.map (·.1)).Pairwise (· < ·))
      (h : ∀ m ∈ ms, Ordered m.2) : Ordered (object ms)

/-- Lists and objects are nested in the value at most so many levels deep. -/
def NestsWithin : Nat → Json → Prop
  | levels + 1, array es => ∀ e ∈ es, NestsWithin levels e
  | levels + 1, object ms => ∀ m ∈ ms, NestsWithin levels m.2
  | 0, array _ | 0, object _ => False
  | _, null | _, bool _ | _, number _ | _, string _ => True

instance decidableNestsWithin : (levels : Nat) → (j : Json) → Decidable (j.NestsWithin levels)
  | levels + 1, array es =>
    have : DecidablePred (NestsWithin levels) := decidableNestsWithin levels
    inferInstanceAs (Decidable (∀ e ∈ es, e.NestsWithin levels))
  | levels + 1, object ms =>
    have : DecidablePred fun m : String × Json => m.2.NestsWithin levels :=
      fun m => decidableNestsWithin levels m.2
    inferInstanceAs (Decidable (∀ m ∈ ms, m.2.NestsWithin levels))
  | 0, array _ | 0, object _ => isFalse id
  | 0, null | 0, bool _ | 0, number _ | 0, string _ => isTrue trivial
  | _ + 1, null | _ + 1, bool _ | _ + 1, number _ | _ + 1, string _ => isTrue trivial

theorem NestsWithin.array {levels : Nat} {es : List Json} (h : (array es).NestsWithin levels) :
    ∃ inner, levels = inner + 1 ∧ ∀ e ∈ es, e.NestsWithin inner := by
  cases levels with
  | zero => exact h.elim
  | succ inner => exact ⟨inner, rfl, h⟩

theorem NestsWithin.object {levels : Nat} {ms : List (String × Json)}
    (h : (object ms).NestsWithin levels) :
    ∃ inner, levels = inner + 1 ∧ ∀ m ∈ ms, m.2.NestsWithin inner := by
  cases levels with
  | zero => exact h.elim
  | succ inner => exact ⟨inner, rfl, h⟩

theorem elementValues?_elementNodes {levels : Nat} {es : List Json}
    (h : ∀ e ∈ es, e.node.value? levels = some e) :
    elementValues? levels (elementNodes es) = some es := by
  induction es with
  | nil => rfl
  | cons e es ih =>
    rw [elementNodes, elementValues?, h e List.mem_cons_self,
      ih fun e he => h e (List.mem_cons_of_mem _ he)]
    rfl

/-- Members in order are put behind those before them. -/
theorem memberValues?_memberNodes {levels : Nat} {ms found : List (String × Json)}
    (h : ∀ m ∈ ms, m.2.node.value? levels = some m.2)
    (hnames : ((found ++ ms).map (·.1)).Pairwise (· < ·)) :
    memberValues? levels (memberNodes ms) found = some (found ++ ms) := by
  induction ms generalizing found with
  | nil => rw [memberNodes, memberValues?, List.append_nil]
  | cons m ms ih =>
    have hsplit : found ++ m :: ms = found ++ [m] ++ ms := by simp
    have hlast : ∀ a ∈ found, a.1 < m.1 := by
      intro a ha
      rw [List.map_append, List.map_cons] at hnames
      exact (List.pairwise_append.1 hnames).2.2 _ (List.mem_map_of_mem ha) _ List.mem_cons_self
    have hput : putSorted (·.1) m found = found ++ [m] := putSorted_last hlast
    rw [memberNodes, memberValues?, textOf?_unitsOf, h m List.mem_cons_self]
    simp only [Option.bind_eq_bind, Option.bind_some, hput]
    rw [ih (fun a ha => h a (List.mem_cons_of_mem _ ha)) (hsplit ▸ hnames), hsplit]

/-- A value with its members in order is the value of its node. -/
theorem value?_node {j : Json} (hj : j.NoFloat) (hordered : j.Ordered) {levels : Nat}
    (hlevels : j.NestsWithin levels) : j.node.value? levels = some j := by
  induction hj generalizing levels with
  | null => rfl
  | bool b => rfl
  | whole n h =>
    rw [node, Node.value?, spelling_whole n h, value?_wholeSpelling n h, Option.map_some]
  | string s => rw [node, Node.value?, textOf?_unitsOf, Option.map_some]
  | @array es h ih =>
    obtain ⟨inner, rfl, hinner⟩ := hlevels.array
    cases hordered with
    | array hes =>
      have hvalues : elementValues? inner (elementNodes es) = some es :=
        elementValues?_elementNodes fun e he => ih e he (hes e he) (hinner e he)
      rw [node, Node.value?, hvalues]
      rfl
  | @object ms h ih =>
    obtain ⟨inner, rfl, hinner⟩ := hlevels.object
    cases hordered with
    | object hnames hms =>
      have hvalues : memberValues? inner (memberNodes ms) [] = some ([] ++ ms) :=
        memberValues?_memberNodes (fun m hm => ih m hm (hms m hm) (hinner m hm)) hnames
      rw [node, Node.value?, hvalues]
      rfl

end ApiDecl.Json
