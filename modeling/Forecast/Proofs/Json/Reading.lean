import Forecast.Proofs.Json.Lexing

/-!
# Written values

A JSON value reads back as it was written, in either layout (`Value.parse?_compact`,
`Value.parse?_indented`): whatever its depth, the order of its members and the keys that repeat, and
also with literals that are no texts.

Both layouts spell the tokens of the value, and the machine that reads tokens comes from them to the
value with its stack as it was.
-/

namespace Forecast.Json

namespace Value

/-- A statement holds of all values if it holds of a container once it holds of what is inside. -/
@[elab_as_elim]
theorem inductionOn {P : Value → Prop} (v : Value) (null : P .null) (bool : ∀ b, P (.bool b))
    (number : ∀ n, P (.number n)) (text : ∀ s, P (.text s))
    (array : ∀ items, (∀ w ∈ items, P w) → P (.array items))
    (object : ∀ members, (∀ m ∈ members, P m.2) → P (.object members)) : P v := by
  refine @Value.rec P (fun items => ∀ w ∈ items, P w) (fun members => ∀ m ∈ members, P m.2)
    (fun m => P m.2) null bool number text array object ?_ ?_ ?_ ?_ ?_ v
  · exact fun w hw => absurd hw List.not_mem_nil
  · intro w items hw hitems x hx
    rcases List.mem_cons.1 hx with rfl | hx
    · exact hw
    · exact hitems x hx
  · exact fun m hm => absurd hm List.not_mem_nil
  · intro m members hm hmembers x hx
    rcases List.mem_cons.1 hx with rfl | hx
    · exact hm
    · exact hmembers x hx
  · exact fun _ _ h => h

end Value

/-! ## Tokens to values -/

namespace Reader

open Value

/-- The tokens of a value are read as the value, wherever one may start. -/
def Takes (v : Value) : Prop :=
  ∀ stack, run ⟨.value, stack⟩ v.tokens = some ⟨.after v, stack⟩

theorem Takes.run_append {v : Value} (h : Takes v) (stack : List Frame) (ts : List Token) :
    run ⟨.value, stack⟩ (v.tokens ++ ts) = run ⟨.after v, stack⟩ ts := by
  rw [Reader.run_append, h, Option.bind_some]

/-- A member is read from its key, the colon and its value. -/
theorem Takes.run_member {v : Value} (h : Takes v) (k : Literal) (done : List (Literal × Value))
    (stack : List Frame) (ts : List Token) :
    run ⟨.key, .object done :: stack⟩ (Token.text k :: Token.colon :: (v.tokens ++ ts)) =
      run ⟨.after v, .entry done k :: stack⟩ ts := by
  rw [← h.run_append]
  rfl

theorem run_itemTokens {v : Value} {vs : List Value} (hv : Takes v) (hvs : ∀ w ∈ vs, Takes w)
    (done : List Value) (stack : List Frame) :
    run ⟨.value, .array done :: stack⟩ (itemTokens (v :: vs) ++ [Token.closeArray]) =
      some ⟨.after (.array (done.reverse ++ v :: vs)), stack⟩ := by
  induction vs generalizing v done with
  | nil =>
    rw [itemTokens, hv.run_append]
    simp [step, afterValue]
  | cons w vs ih =>
    have hcomma : step ⟨.after v, .array done :: stack⟩ .comma =
        some ⟨.value, .array (v :: done) :: stack⟩ := rfl
    rw [itemTokens, List.append_assoc, hv.run_append, List.cons_append, run_cons, hcomma,
      Option.bind_some,
      ih (hvs w List.mem_cons_self) (fun x hx => hvs x (List.mem_cons_of_mem _ hx))]
    simp

theorem run_memberTokens {m : Literal × Value} {ms : List (Literal × Value)} (hm : Takes m.2)
    (hms : ∀ x ∈ ms, Takes x.2) (done : List (Literal × Value)) (stack : List Frame) :
    run ⟨.key, .object done :: stack⟩ (memberTokens (m :: ms) ++ [Token.closeObject]) =
      some ⟨.after (.object (done.reverse ++ m :: ms)), stack⟩ := by
  induction ms generalizing m done with
  | nil =>
    rw [memberTokens, List.cons_append, List.cons_append, hm.run_member]
    simp [step, afterValue]
  | cons x ms ih =>
    have hcomma : step ⟨.after m.2, .entry done m.1 :: stack⟩ .comma =
        some ⟨.key, .object (m :: done) :: stack⟩ := rfl
    rw [memberTokens, List.append_assoc, List.cons_append, List.cons_append, hm.run_member,
      List.cons_append, run_cons, hcomma, Option.bind_some,
      ih (hms x List.mem_cons_self) (fun y hy => hms y (List.mem_cons_of_mem _ hy))]
    simp

/-- The first item of an array is read like any other value. -/
theorem run_firstItem (v : Value) (stack : List Frame) (ts : List Token) :
    run ⟨.firstItem, stack⟩ (v.tokens ++ ts) = run ⟨.value, stack⟩ (v.tokens ++ ts) := by
  cases v <;> rfl

theorem takes_array {items : List Value} (h : ∀ w ∈ items, Takes w) : Takes (.array items) := by
  intro stack
  cases items with
  | nil => rfl
  | cons w ws =>
    have hitems := run_itemTokens (h w List.mem_cons_self)
      (fun x hx => h x (List.mem_cons_of_mem _ hx)) [] stack
    rw [tokens]
    show run ⟨.firstItem, .array [] :: stack⟩ (itemTokens (w :: ws) ++ [Token.closeArray]) = _
    cases ws with
    | nil => exact (run_firstItem w _ _).trans hitems
    | cons x ws =>
      rw [itemTokens, List.append_assoc] at hitems ⊢
      exact (run_firstItem w _ _).trans hitems

theorem takes_object {members : List (Literal × Value)} (h : ∀ m ∈ members, Takes m.2) :
    Takes (.object members) := by
  intro stack
  cases members with
  | nil => rfl
  | cons m ms =>
    have hmembers := run_memberTokens (h m List.mem_cons_self)
      (fun x hx => h x (List.mem_cons_of_mem _ hx)) [] stack
    -- a key is read alike after the opening and after a comma
    rw [tokens]
    cases ms <;> exact hmembers

/-- Reading the tokens of a value leaves the value, and the open containers as they were. -/
theorem takes (v : Value) : Takes v := by
  induction v using Value.inductionOn with
  | null => exact fun _ => rfl
  | bool b => exact fun _ => rfl
  | number n => exact fun _ => rfl
  | text s => exact fun _ => rfl
  | array items ih => exact takes_array ih
  | object members ih => exact takes_object ih

end Reader

namespace Value

theorem ofTokens?_tokens (v : Value) : ofTokens? v.tokens = some v := by
  rw [ofTokens?, Reader.initial, Reader.takes v]
  rfl

/-- A text that spells the tokens of a value is read as the value. -/
theorem ofText?_of_spells {v : Value} {cs : List Char} (h : Lexer.Spells cs v.tokens) :
    ofText? cs = some v := by
  rw [ofText?, h.tokens?_eq, Option.bind_some, ofTokens?_tokens]

/-! ## Values to texts -/

open Lexer

theorem spells_itemTokens {items : List Value}
    (h : ∀ w ∈ items, Spells (w.tokens.flatMap Token.chars) w.tokens) :
    Spells ((itemTokens items).flatMap Token.chars) (itemTokens items) := by
  induction items with
  | nil => exact spells_nil
  | cons v vs ih =>
    have hv := h v List.mem_cons_self
    cases vs with
    | nil => exact hv
    | cons w vs =>
      have hrest := ih fun x hx => h x (List.mem_cons_of_mem _ hx)
      rw [itemTokens, List.flatMap_append, List.flatMap_cons]
      exact isMark_comma.spells_between hv hrest

theorem spells_memberTokens {members : List (Literal × Value)}
    (h : ∀ m ∈ members, Spells (m.2.tokens.flatMap Token.chars) m.2.tokens) :
    Spells ((memberTokens members).flatMap Token.chars) (memberTokens members) := by
  induction members with
  | nil => exact spells_nil
  | cons m ms ih =>
    obtain ⟨k, v⟩ := m
    have hm := isMark_colon.spells_between (spells_text k) (h (k, v) List.mem_cons_self)
    cases ms with
    | nil =>
      rw [memberTokens, List.flatMap_cons, List.flatMap_cons]
      exact hm
    | cons x ms =>
      have hrest := ih fun y hy => h y (List.mem_cons_of_mem _ hy)
      rw [memberTokens, List.flatMap_append, List.flatMap_cons, List.flatMap_cons,
        List.flatMap_cons]
      exact isMark_comma.spells_between hm hrest

theorem spells_compactChars (v : Value) : Spells v.compactChars v.tokens := by
  induction v using inductionOn with
  | null => simpa [compactChars, tokens] using spells_chars .null
  | bool b => simpa [compactChars, tokens] using spells_chars (.bool b)
  | number n => simpa [compactChars, tokens] using spells_chars (.number n)
  | text s => simpa [compactChars, tokens] using spells_chars (.text s)
  | array items ih =>
    have hitems := isMark_closeArray.spells_between (spells_itemTokens ih) spells_nil
    simpa [compactChars, tokens] using isMark_openArray.spells_cons hitems
  | object members ih =>
    have hmembers := isMark_closeObject.spells_between (spells_memberTokens ih) spells_nil
    simpa [compactChars, tokens] using isMark_openObject.spells_cons hmembers

/-- A value is read back from its compact text. -/
theorem parse?_compact (v : Value) : parse? v.compact = some v := by
  rw [parse?, compact, String.toList_ofList]
  exact ofText?_of_spells (spells_compactChars v)

/-! ## Indented texts -/

theorem spells_newLine (depth : Nat) {cs : List Char} {ts : List Token} (h : Spells cs ts) :
    Spells (newLine depth ++ cs) ts := by
  refine .blanks (fun c hc => ?_) h
  rcases List.mem_cons.1 hc with rfl | hc
  · decide
  · rw [List.eq_of_mem_replicate hc]
    decide

theorem separates_newLine (depth : Nat) (cs : List Char) : Separates (newLine depth ++ cs) :=
  separates_cons (by decide) (by decide) _

theorem spells_itemLines {items : List Value} (h : ∀ w ∈ items, ∀ d, Spells (w.lines d) w.tokens)
    (depth : Nat) : Spells (itemLines depth items) (itemTokens items) := by
  induction items with
  | nil => exact spells_nil
  | cons v vs ih =>
    have hv := spells_newLine depth (h v List.mem_cons_self depth)
    cases vs with
    | nil => exact hv
    | cons w vs =>
      have hrest := ih fun x hx => h x (List.mem_cons_of_mem _ hx)
      rw [itemTokens, itemLines, List.append_assoc _ Token.comma.chars]
      exact isMark_comma.spells_between hv hrest

theorem spells_memberLines {members : List (Literal × Value)}
    (h : ∀ m ∈ members, ∀ d, Spells (m.2.lines d) m.2.tokens) (depth : Nat) :
    Spells (memberLines depth members) (memberTokens members) := by
  induction members with
  | nil => exact spells_nil
  | cons m ms ih =>
    obtain ⟨k, v⟩ := m
    have hvalue : Spells (' ' :: v.lines depth) v.tokens :=
      .blank (by decide) (h (k, v) List.mem_cons_self depth)
    have hm := spells_newLine depth (isMark_colon.spells_between (spells_text k) hvalue)
    cases ms with
    | nil => simpa [memberLines, memberTokens] using hm
    | cons x ms =>
      have hrest := ih fun y hy => h y (List.mem_cons_of_mem _ hy)
      have hall := isMark_comma.spells_between hm hrest
      simpa [memberLines, memberTokens] using hall

theorem spells_lines (v : Value) (depth : Nat) : Spells (v.lines depth) v.tokens := by
  induction v using inductionOn generalizing depth with
  | null => simpa [lines, tokens] using spells_chars .null
  | bool b => simpa [lines, tokens] using spells_chars (.bool b)
  | number n => simpa [lines, tokens] using spells_chars (.number n)
  | text s => simpa [lines, tokens] using spells_chars (.text s)
  | array items ih =>
    cases items with
    | nil =>
      simpa [lines, tokens, itemTokens] using
        isMark_openArray.spells_cons isMark_closeArray.spells
    | cons v vs =>
      have hclose := spells_newLine depth isMark_closeArray.spells
      have hitems := (spells_itemLines ih (depth + 1)).append hclose (separates_newLine depth _)
      simpa [lines, tokens] using isMark_openArray.spells_cons hitems
  | object members ih =>
    cases members with
    | nil =>
      simpa [lines, tokens, memberTokens] using
        isMark_openObject.spells_cons isMark_closeObject.spells
    | cons m ms =>
      have hclose := spells_newLine depth isMark_closeObject.spells
      have hmembers := (spells_memberLines ih (depth + 1)).append hclose (separates_newLine depth _)
      simpa [lines, tokens] using isMark_openObject.spells_cons hmembers

/-- A value is read back from its indented text. -/
theorem parse?_indented (v : Value) : parse? v.indented = some v := by
  rw [parse?, indented, String.toList_ofList]
  exact ofText?_of_spells (spells_lines v 0)

end Value

end Forecast.Json
