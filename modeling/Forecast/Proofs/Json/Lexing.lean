import Forecast.Json.Writer
import Forecast.Proofs.Json.Numeral

/-!
# Written lexemes

A text *spells* tokens when the lexer reads them in it, wherever a lexeme may start
(`Lexer.Spells`). The last lexeme may still be under way at the end of the text: a word and a number
end only at what follows them. So a text may be put behind another one if it starts with a character
that can go on neither with a word nor with a number (`Lexer.Spells.append`).

Every token is spelled by the characters it is written with (`Lexer.spells_chars`), and blanks
between tokens change nothing.
-/

namespace Forecast.Json

namespace Lexer

/-- The lexer reads the tokens in the text, of which the last may be under way. -/
def Spells (cs : List Char) (ts : List Token) : Prop :=
  ∀ done, ∃ l, run ⟨.between, done⟩ cs = some l ∧ l.flush = some (ts.reverse ++ done)

/-- The text starts with a character at which words and numbers end. -/
def Separates (cs : List Char) : Prop :=
  ∀ c ∈ cs.head?, c.isLower = false ∧ isNumberChar c = false

theorem separates_cons {c : Char} (hl : c.isLower = false) (hn : isNumberChar c = false)
    (cs : List Char) : Separates (c :: cs) := by
  rintro _ ⟨⟩
  exact ⟨hl, hn⟩

/-- A lexeme under way ends at a character that cannot go on with it, which then starts afresh. -/
theorem step_of_flush {l : Lexer} {tokens : List Token} {c : Char} (h : l.flush = some tokens)
    (hl : c.isLower = false) (hn : isNumberChar c = false) :
    l.step c = step ⟨.between, tokens⟩ c := by
  obtain ⟨mode, done⟩ := l
  cases mode with
  | between =>
    cases h
    rfl
  | word letters => simp only [step, hl, Bool.false_eq_true, if_false, h, Option.bind_some]
  | number digits => simp only [step, hn, Bool.false_eq_true, if_false, h, Option.bind_some]
  | text units => cases h
  | escape units => cases h
  | hex units left value => cases h

theorem spells_nil : Spells [] [] := fun done => ⟨⟨.between, done⟩, rfl, rfl⟩

theorem Spells.append {cs ds : List Char} {ts us : List Token} (h : Spells cs ts)
    (h' : Spells ds us) (hsep : Separates ds) : Spells (cs ++ ds) (ts ++ us) := by
  intro done
  obtain ⟨l, hrun, hflush⟩ := h done
  -- the lexeme under way ends at the first character of the second text, if it has one
  cases ds with
  | nil =>
    obtain ⟨l', hrun', hflush'⟩ := h' (ts.reverse ++ done)
    cases hrun'
    refine ⟨l, by rw [List.append_nil, hrun], ?_⟩
    rw [hflush, List.reverse_append, List.append_assoc]
    exact hflush'
  | cons c ds =>
    obtain ⟨hl, hn⟩ := hsep c rfl
    obtain ⟨l', hrun', hflush'⟩ := h' (ts.reverse ++ done)
    refine ⟨l', ?_, ?_⟩
    · rw [run_append, hrun, Option.bind_some, run_cons, step_of_flush hflush hl hn, ← run_cons]
      exact hrun'
    · rw [List.reverse_append, List.append_assoc]
      exact hflush'

/-- A text that spells tokens has them. -/
theorem Spells.tokens?_eq {cs : List Char} {ts : List Token} (h : Spells cs ts) :
    tokens? cs = some ts := by
  obtain ⟨l, hrun, hflush⟩ := h []
  rw [Json.tokens?, initial, hrun, Option.bind_some, hflush, Option.map_some, List.append_nil,
    List.reverse_reverse]

/-! ## Blanks and marks -/

theorem Spells.blank {c : Char} {cs : List Char} {ts : List Token} (hc : isSpace c = true)
    (h : Spells cs ts) : Spells (c :: cs) ts := by
  intro done
  obtain ⟨l, hrun, hflush⟩ := h done
  have hstep : step ⟨.between, done⟩ c = some ⟨.between, done⟩ := by
    simp only [step, start, hc, if_true]
  exact ⟨l, by rw [run_cons, hstep]; exact hrun, hflush⟩

theorem Spells.blanks {bs cs : List Char} {ts : List Token} (hbs : ∀ c ∈ bs, isSpace c = true)
    (h : Spells cs ts) : Spells (bs ++ cs) ts := by
  induction bs with
  | nil => exact h
  | cons b bs ih =>
    exact .blank (hbs b List.mem_cons_self) (ih fun c hc => hbs c (List.mem_cons_of_mem _ hc))

/-- The token is a mark of punctuation: one character, at which words and numbers end and after
which any lexeme may start. -/
structure IsMark (t : Token) (c : Char) : Prop where
  chars_eq : t.chars = [c]
  step_eq (done : List Token) : step ⟨.between, done⟩ c = some ⟨.between, t :: done⟩
  not_lower : c.isLower = false
  not_numberChar : isNumberChar c = false

theorem isMark_openArray : IsMark .openArray '[' := ⟨rfl, fun _ => rfl, by decide, by decide⟩
theorem isMark_closeArray : IsMark .closeArray ']' := ⟨rfl, fun _ => rfl, by decide, by decide⟩
theorem isMark_openObject : IsMark .openObject '\x7b' := ⟨rfl, fun _ => rfl, by decide, by decide⟩
theorem isMark_closeObject : IsMark .closeObject '\x7d' := ⟨rfl, fun _ => rfl, by decide, by decide⟩
theorem isMark_comma : IsMark .comma ',' := ⟨rfl, fun _ => rfl, by decide, by decide⟩
theorem isMark_colon : IsMark .colon ':' := ⟨rfl, fun _ => rfl, by decide, by decide⟩

namespace IsMark

variable {t : Token} {c : Char}

theorem spells_cons (ht : IsMark t c) {cs : List Char} {ts : List Token} (h : Spells cs ts) :
    Spells (t.chars ++ cs) (t :: ts) := by
  intro done
  obtain ⟨l, hrun, hflush⟩ := h (t :: done)
  refine ⟨l, ?_, ?_⟩
  · rw [ht.chars_eq, List.singleton_append, run_cons, ht.step_eq]
    exact hrun
  · rw [List.reverse_cons, List.append_assoc]
    exact hflush

theorem spells (ht : IsMark t c) : Spells t.chars [t] := by
  simpa using ht.spells_cons spells_nil

/-- A mark may stand between any two lexemes. -/
theorem spells_between (ht : IsMark t c) {cs ds : List Char} {ts us : List Token}
    (h : Spells cs ts) (h' : Spells ds us) : Spells (cs ++ (t.chars ++ ds)) (ts ++ t :: us) := by
  refine h.append (ht.spells_cons h') ?_
  rw [ht.chars_eq]
  exact separates_cons ht.not_lower ht.not_numberChar ds

end IsMark

/-! ## Literals -/

/-- No character is half of a pair. -/
theorem not_surrogate (c : Char) :
    isHighSurrogate c.toNat = false ∧ isLowSurrogate c.toNat = false := by
  have hvalid : c.toNat < 0xD800 ∨ 0xDFFF < c.toNat := by
    rcases c.valid with h | h
    · exact .inl h
    · exact .inr h.1
  simp only [isHighSurrogate, isLowSurrogate, Bool.and_eq_false_iff, decide_eq_false_iff_not]
  omega

theorem pushUnit_char (units : List Nat) (c : Char) :
    pushUnit units c.toNat = c.toNat :: units := by
  cases units with
  | nil => rfl
  | cons high rest => simp [pushUnit, not_surrogate c]

theorem run_hexDigits (units : List Nat) (done : List Token) {n : Nat} (h : n < 65536) :
    run ⟨.hex units 3 0, done⟩ (Text.hexDigits 4 n) = some ⟨.text (pushUnit units n), done⟩ := by
  have hdigit (k : Nat) : Text.hexValue? (k % 16).digitChar = some (k % 16) :=
    Text.hexValue?_digitChar (Nat.mod_lt k (by decide))
  have hvalue : 16 * (16 * (16 * (16 * 0 + n / 16 / 16 / 16 % 16) + n / 16 / 16 % 16) +
      n / 16 % 16) + n % 16 = n := by omega
  simp only [Text.hexDigits, List.nil_append, List.cons_append, run_cons, run_nil, step, hdigit,
    Option.map_some, Option.bind_some, hvalue]

/-- A character of a literal is read as it was, escaped or not. -/
theorem run_escape (units : List Nat) (done : List Token) (c : Char) :
    run ⟨.text units, done⟩ (Token.escape c) = some ⟨.text (c.toNat :: units), done⟩ := by
  rw [← pushUnit_char units c]
  unfold Token.escape
  -- seven characters have an escape of one letter
  iterate 7
    split
    · rename_i h
      subst h
      rfl
  split
  · rename_i hlt
    exact run_hexDigits units done (Nat.lt_trans hlt (by decide))
  · rename_i hquote hslash _ _ _ _ _ hge
    simp only [run_cons, run_nil, step, hquote, hslash, hge, if_false, Option.bind_some]

theorem run_flatMap_escape (units : List Nat) (done : List Token) (cs : List Char) :
    run ⟨.text units, done⟩ (cs.flatMap Token.escape) =
      some ⟨.text ((cs.map Char.toNat).reverse ++ units), done⟩ := by
  induction cs generalizing units with
  | nil => rfl
  | cons c cs ih =>
    rw [List.flatMap_cons, run_append, run_escape, Option.bind_some, ih]
    simp

theorem closeLiteral_chars (cs : List Char) :
    closeLiteral (cs.map Char.toNat).reverse = some (String.ofList cs) := by
  have hwhole : ((cs.map Char.toNat).reverse.any fun n => isHighSurrogate n || isLowSurrogate n) =
      false := by
    rw [List.any_reverse, List.any_map, List.any_eq_false]
    intro c _
    simp [not_surrogate c]
  have hback : (cs.map Char.toNat).map Char.ofNat = cs := by
    rw [List.map_map]
    exact List.map_id'' Char.ofNat_toNat cs
  rw [closeLiteral, if_neg (by rw [hwhole]; exact Bool.false_ne_true), List.reverse_reverse, hback]

theorem spells_text (s : Literal) : Spells (Token.text s).chars [.text s] := by
  intro done
  have hclose (units : List Nat) :
      run ⟨.text units, done⟩ ['"'] = some ⟨.between, .text (closeLiteral units) :: done⟩ := rfl
  refine ⟨⟨.between, .text s :: done⟩, ?_, rfl⟩
  have hopen : run ⟨.between, done⟩ (Token.text s).chars =
      (run ⟨.text [], done⟩ (Token.literalBody s)).bind fun l => l.run ['"'] := by
    rw [← run_append]
    rfl
  rw [hopen]
  cases s with
  | none => rfl
  | some s =>
    rw [Token.literalBody, run_flatMap_escape, Option.bind_some, List.append_nil, hclose,
      closeLiteral_chars, String.ofList_toList]

/-! ## Numbers -/

theorem start_of_number (done : List Token) {c : Char} (h : c = '-' ∨ c.isDigit = true) :
    start done c = some ⟨.number [c], done⟩ := by
  rcases h with rfl | h
  · rfl
  · have hne (d : Char) (hd : d.isDigit = false) : c ≠ d := Text.ne_of_isDigit h hd
    simp [start, isSpace, h, hne ' ' rfl, hne '\t' rfl, hne '\n' rfl, hne '\r' rfl, hne '[' rfl,
      hne ']' rfl, hne '\x7b' rfl, hne '\x7d' rfl, hne ',' rfl, hne ':' rfl, hne '"' rfl]

theorem run_numberChars (digits : List Char) (done : List Token) {cs : List Char}
    (h : ∀ c ∈ cs, isNumberChar c = true) :
    run ⟨.number digits, done⟩ cs = some ⟨.number (cs.reverse ++ digits), done⟩ := by
  induction cs generalizing digits with
  | nil => rfl
  | cons c cs ih =>
    have hstep : step ⟨.number digits, done⟩ c = some ⟨.number (c :: digits), done⟩ := by
      simp only [step, h c List.mem_cons_self, if_true]
    rw [run_cons, hstep, Option.bind_some, ih _ fun d hd => h d (List.mem_cons_of_mem _ hd)]
    simp

theorem spells_number (n : Numeral) : Spells (Token.number n).chars [.number n] := by
  intro done
  obtain ⟨c, cs, hcs, hc⟩ := n.chars_eq_cons
  have hrest : ∀ d ∈ cs, isNumberChar d = true := fun d hd =>
    Numeral.isNumberChar_of_mem_chars (hcs ▸ List.mem_cons_of_mem c hd)
  refine ⟨⟨.number (cs.reverse ++ [c]), done⟩, ?_, ?_⟩
  · show run _ n.chars = _
    rw [hcs, run_cons, step, start_of_number done hc, Option.bind_some, run_numberChars _ _ hrest]
  · have hback : (cs.reverse ++ [c]).reverse = n.chars := by simp [hcs]
    simp only [flush, hback, Numeral.ofText?_chars, Option.map_some, List.reverse_singleton,
      List.singleton_append]

/-! ## Tokens -/

/-- Every token is spelled as it is written. -/
theorem spells_chars (t : Token) : Spells t.chars [t] := by
  cases t with
  | openArray => exact isMark_openArray.spells
  | closeArray => exact isMark_closeArray.spells
  | openObject => exact isMark_openObject.spells
  | closeObject => exact isMark_closeObject.spells
  | comma => exact isMark_comma.spells
  | colon => exact isMark_colon.spells
  | null => exact fun done => ⟨⟨.word ['l', 'l', 'u', 'n'], done⟩, rfl, rfl⟩
  | bool b =>
    cases b with
    | true => exact fun done => ⟨⟨.word ['e', 'u', 'r', 't'], done⟩, rfl, rfl⟩
    | false => exact fun done => ⟨⟨.word ['e', 's', 'l', 'a', 'f'], done⟩, rfl, rfl⟩
  | number n => exact spells_number n
  | text s => exact spells_text s

end Lexer

end Forecast.Json
