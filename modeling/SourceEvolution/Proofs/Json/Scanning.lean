import Mathlib.Data.List.Forall2
import SourceEvolution.Json.Reader

/-!
# Scanning what has been written

The compact and the pretty text of a value are cut into the same tokens, those of the value. A token
is read to its end whatever stands behind it, except for numerals and words, which go on as long as
their characters do; so each text is followed by one that stops them.

* **Strings** (`scanString_quoted`): every character is read back from what it is written as.
* **Tokens** (`scanToken_digits`, `scanToken_word`): a numeral or a word is read back if the text
  behind it stops it (`Stops`).
* **Texts** (`Spells`): a text is cut into the given tokens, whatever stands behind it. Elements
  with commas between them and brackets around them are put together from what each of them spells.
* **Values** (`spells_compactChars`, `spells_prettyAt`): for values made of nothing but what
  documents are written with (`Json.IsPlain`).
-/

namespace SourceEvolution

/-! ## Reading one by one -/

/-- What has been written one by one is read one by one. -/
theorem mapM_map_eq_some {α β : Type} {write : α → β} {read : β → Option α} {xs : List α}
    (h : ∀ x ∈ xs, read (write x) = some x) : (xs.map write).mapM read = some xs := by
  induction xs with
  | nil => rfl
  | cons x rest ih =>
    obtain ⟨hx, hrest⟩ := List.forall_mem_cons.mp h
    rw [List.map_cons, List.mapM_cons, hx, ih hrest]
    rfl

/-- What is read one by one is read from the element at the same place. -/
theorem forall₂_of_mapM {α β : Type} {read : α → Option β} {xs : List α} {ys : List β}
    (h : xs.mapM read = some ys) : List.Forall₂ (fun x y => read x = some y) xs ys := by
  induction xs generalizing ys with
  | nil =>
    cases h
    exact .nil
  | cons x rest ih =>
    rw [List.mapM_cons, Option.bind_eq_bind, Option.bind_eq_some_iff] at h
    obtain ⟨y, hy, h⟩ := h
    rw [Option.bind_eq_bind, Option.bind_eq_some_iff] at h
    obtain ⟨more, hmore, h⟩ := h
    cases h
    exact .cons hy (ih hmore)

/-- Each of what is read one by one is read from some element. -/
theorem exists_of_mem_mapM {α β : Type} {read : α → Option β} {xs : List α} {ys : List β} {y : β}
    (h : xs.mapM read = some ys) (hy : y ∈ ys) : ∃ x ∈ xs, read x = some y := by
  have hall := forall₂_of_mapM h
  clear h
  induction hall with
  | nil => exact absurd hy List.not_mem_nil
  | cons hfirst _ ih =>
    rcases List.mem_cons.mp hy with rfl | hy
    · exact ⟨_, List.mem_cons_self, hfirst⟩
    · obtain ⟨x, hx, hread⟩ := ih hy
      exact ⟨x, List.mem_cons_of_mem _ hx, hread⟩

namespace Token

/-! ## Strings -/

/-- A control character is read back from its number. -/
theorem hexWord?_control (rest : List Char) {n : Nat} (h : n < 0x20) :
    hexWord? ('0' :: '0' :: Hexadecimal.digitChar (n / 16) :: Hexadecimal.digitChar (n % 16) ::
      rest) = some n := by
  have hzero : Hexadecimal.digit? '0' = some 0 := rfl
  have hhigh := Hexadecimal.digit?_digitChar (n / 16) (by omega)
  have hlow := Hexadecimal.digit?_digitChar (n % 16) (by omega)
  have hvalue := Nat.div_add_mod n 16
  simp [hexWord?, Hexadecimal.value?, hzero, hhigh, hlow, hvalue]

/-- An escape is read as the character that it stands for. -/
theorem scanString_escape {cs : List Char} {c : Char} {used : Nat}
    (h : escaped? cs = some (some c, used)) :
    scanString ('\\' :: cs) =
      (scanString (cs.drop used)).map fun found => (some c :: found.1, found.2) := by
  rw [scanString, if_neg (by decide), if_pos rfl, h]
  change (scanString (cs.drop used)).bind (fun found => some (some c :: found.1, found.2)) = _
  cases scanString (cs.drop used) <;> rfl

/-- A character that needs no escape is read as itself. -/
theorem scanString_of_printed {c : Char} (hquote : c ≠ '\x22') (hslash : c ≠ '\\')
    (hcontrol : ¬ c.toNat < 0x20) (cs : List Char) :
    scanString (c :: cs) =
      (scanString cs).map fun found => (some c :: found.1, found.2) := by
  rw [scanString, if_neg hquote, if_neg hslash, if_neg hcontrol]
  cases scanString cs <;> rfl

/-- A control character is read back from its number. -/
theorem escaped?_control {c : Char} (h : c.toNat < 0x20) (rest : List Char) :
    escaped? ('u' :: '0' :: '0' :: Hexadecimal.digitChar (c.toNat / 16) ::
      Hexadecimal.digitChar (c.toNat % 16) :: rest) = some (some c, 5) := by
  have hsurrogate : ¬ (0xD800 ≤ c.toNat ∧ c.toNat < 0xE000) := by omega
  have hpoint : codePoint? ('0' :: '0' :: Hexadecimal.digitChar (c.toNat / 16) ::
      Hexadecimal.digitChar (c.toNat % 16) :: rest) = some (some c, 4) := by
    rw [codePoint?, hexWord?_control rest h, Option.bind_eq_bind, Option.bind_some,
      if_neg hsurrogate, Char.ofNat_toNat]
  simp only [escaped?, hpoint]
  rfl

/-- A character is read back from what it is written as. -/
theorem scanString_escapeChar (c : Char) (rest : List Char) :
    scanString (escapeChar c ++ rest) =
      (scanString rest).map fun found => (some c :: found.1, found.2) := by
  unfold escapeChar
  split_ifs with hquote hslash hback hfeed hline hreturn htab hcontrol
  · subst hquote
    exact @scanString_escape ('\x22' :: rest) _ 1 rfl
  · subst hslash
    exact @scanString_escape ('\\' :: rest) _ 1 rfl
  · subst hback
    exact @scanString_escape ('b' :: rest) _ 1 rfl
  · subst hfeed
    exact @scanString_escape ('f' :: rest) _ 1 rfl
  · subst hline
    exact @scanString_escape ('n' :: rest) _ 1 rfl
  · subst hreturn
    exact @scanString_escape ('r' :: rest) _ 1 rfl
  · subst htab
    exact @scanString_escape ('t' :: rest) _ 1 rfl
  · exact scanString_escape (escaped?_control hcontrol rest)
  · exact scanString_of_printed hquote hslash hcontrol rest

/-- The characters of a string are read back up to its closing quotation mark. -/
theorem scanString_quoted (cs rest : List Char) :
    scanString (cs.flatMap escapeChar ++ '\x22' :: rest) = some (cs.map some, rest) := by
  induction cs with
  | nil =>
    rw [List.flatMap_nil, List.nil_append, scanString, if_pos rfl]
    rfl
  | cons c cs ih =>
    rw [List.flatMap_cons, List.append_assoc, scanString_escapeChar, ih]
    rfl

/-- Characters that are all there make up a string. -/
theorem ofChars_map_some (cs : List Char) : ofChars (cs.map some) = .string (String.ofList cs) := by
  have hall : (cs.map some).mapM id = some cs := mapM_map_eq_some fun _ _ => rfl
  rw [ofChars, hall]

/-! ## Tokens -/

/-- Whether a text ends a numeral or a word in front of it. -/
def Stops (rest : List Char) : Prop :=
  ∀ c ∈ rest.head?, Numeral.isNumberChar c = false ∧ c.isAlpha = false

theorem stops_nil : Stops [] := by
  intro c hc
  cases hc

theorem stops_cons {c : Char} (hnumber : Numeral.isNumberChar c = false)
    (hletter : c.isAlpha = false) (rest : List Char) : Stops (c :: rest) := by
  intro d hd
  cases hd
  exact ⟨hnumber, hletter⟩

/-- A run of characters of a class is taken whole where the text behind it is not of the class. -/
theorem scanRun_append {p : Char → Bool} {read : List Char → Option Token} {run rest : List Char}
    {token : Token} (hrun : ∀ c ∈ run, p c = true) (hrest : ∀ c ∈ rest.head?, p c = false)
    (hread : read run = some token) : scanRun p read (run ++ rest) = some (token, rest) := by
  have hstop : rest.takeWhile p = [] ∧ rest.dropWhile p = rest := by
    cases rest with
    | nil => exact ⟨rfl, rfl⟩
    | cons c cs => simp [hrest c rfl]
  rw [scanRun, List.takeWhile_append_of_pos hrun, List.dropWhile_append_of_pos hrun, hstop.1,
    hstop.2, List.append_nil, hread]
  rfl

/-- A digit starts neither a mark nor a string nor a word, and is no blank. -/
theorem of_digitChar : ∀ d < 10,
    mark? (Decimal.digitChar d) = none ∧ Decimal.digitChar d ≠ '\x22' ∧
      (Decimal.digitChar d).isAlpha = false ∧ isSpace (Decimal.digitChar d) = false := by
  decide

/-- A numeral starts with a digit, which is zero for the number zero only. -/
theorem exists_digits_eq (n : Nat) :
    ∃ d < 10, ∃ rest, Decimal.digits n = Decimal.digitChar d :: rest ∧
      (d = 0 → n = 0 ∧ rest = []) := by
  fun_induction Decimal.digits n with
  | case1 n h => exact ⟨n, h, [], rfl, fun hzero => ⟨hzero, rfl⟩⟩
  | case2 n h ih =>
    obtain ⟨d, hd, rest, hdigits, hzero⟩ := ih
    refine ⟨d, hd, rest ++ [Decimal.digitChar (n % 10)], ?_, ?_⟩
    · rw [hdigits, List.cons_append]
    · intro hd
      have := (hzero hd).1
      omega

/-- A numeral is a number without leading zeros. -/
theorem isWhole_digits (n : Nat) : Numeral.isWhole (Decimal.digits n) = true := by
  have hrun : Numeral.isRun (Decimal.digits n) = true := by
    rw [Numeral.isRun, Decimal.all_isDigit_digits, Bool.and_true]
    simpa using Decimal.digits_ne_nil n
  obtain ⟨d, hd, rest, hdigits, hzero⟩ := exists_digits_eq n
  rw [Numeral.isWhole, hrun, Bool.true_and, hdigits]
  by_cases h : d = 0
  · rw [h, (hzero h).2]
    decide
  · have hne : ∀ d < 10, d ≠ 0 → Decimal.digitChar d ≠ '0' := by
      decide
    simp [hne d hd h]

/-- A numeral is read as its number. -/
theorem scanToken_digits (n : Nat) {rest : List Char} (h : Stops rest) :
    scanToken (Decimal.digits n ++ rest) = some (.natural n, rest) := by
  have hrun : ∀ c ∈ Decimal.digits n, Numeral.isNumberChar c = true := by
    intro c hc
    have hdigit := List.all_eq_true.mp (Decimal.all_isDigit_digits n) c hc
    simp [Numeral.isNumberChar, hdigit]
  have hread : numeral? (Decimal.digits n) = some (.natural n) := by
    rw [numeral?, if_pos (isWhole_digits n), Decimal.value_digits]
  have hscan := scanRun_append hrun (fun c hc => (h c hc).1) hread
  obtain ⟨d, hd, more, hdigits, -⟩ := exists_digits_eq n
  obtain ⟨hmark, hquote, hletter, -⟩ := of_digitChar d hd
  rw [hdigits, List.cons_append] at hscan ⊢
  simp only [scanToken, hmark, if_neg hquote, hletter, Bool.false_eq_true, if_false]
  exact hscan

/-- A word is read as its token. -/
theorem scanToken_word {token : Token} (h : token ∈ [null, bool true, bool false])
    {rest : List Char} (hrest : Stops rest) :
    scanToken (token.render ++ rest) = some (token, rest) := by
  have hwords : ∀ token ∈ [null, bool true, bool false],
      token.render.all Char.isAlpha = true ∧ word? token.render = some token ∧
        (token.render.head?.all fun c => mark? c == none && c != '\x22') = true := by
    decide
  obtain ⟨hall, hread, hhead⟩ := hwords token h
  have hletters := List.all_eq_true.mp hall
  have hscan := scanRun_append hletters (fun c hc => (hrest c hc).2) hread
  cases hrender : token.render with
  | nil =>
    have hnothing : word? [] = none := rfl
    rw [hrender, hnothing] at hread
    cases hread
  | cons c cs =>
    rw [hrender] at hscan hletters hhead
    rw [List.cons_append] at hscan ⊢
    obtain ⟨hmark, hquote⟩ : mark? c = none ∧ c ≠ '\x22' := by simpa using hhead
    simp only [scanToken, hmark, if_neg hquote, hletters c List.mem_cons_self, if_true]
    exact hscan

/-- A string is read as its token, whatever stands behind it. -/
theorem scanToken_quote (s : String) (rest : List Char) :
    scanToken (quote s ++ rest) = some (.string s, rest) := by
  have hmark : mark? '\x22' = none := rfl
  rw [quote, List.cons_append, List.append_assoc, List.singleton_append]
  simp only [scanToken, hmark, if_true, scanString_quoted, Option.map_some, ofChars_map_some,
    String.ofList_toList]

/-- The tokens that are marks. -/
def marks : List Token :=
  [openArray, closeArray, openObject, closeObject, comma, colon]

/-- A mark is read as its token, whatever stands behind it. -/
theorem scanToken_mark {token : Token} (h : token ∈ marks) (rest : List Char) :
    scanToken (token.render ++ rest) = some (token, rest) := by
  simp only [marks, List.mem_cons, List.not_mem_nil, or_false] at h
  rcases h with rfl | rfl | rfl | rfl | rfl | rfl <;> rfl

/-- A mark stops what stands in front of it. -/
theorem stops_mark {token : Token} (h : token ∈ marks) (rest : List Char) :
    Stops (token.render ++ rest) := by
  simp only [marks, List.mem_cons, List.not_mem_nil, or_false] at h
  rcases h with rfl | rfl | rfl | rfl | rfl | rfl <;> exact stops_cons rfl rfl rest

/-! ## Texts -/

/-- Blanks in front of a text are skipped. -/
theorem scan_blanks {blanks : List Char} (h : ∀ c ∈ blanks, isSpace c = true) (rest : List Char) :
    scan (blanks ++ rest) = scan rest := by
  induction blanks with
  | nil => rfl
  | cons c blanks ih =>
    rw [List.cons_append, scan, if_pos (h c List.mem_cons_self),
      ih fun d hd => h d (List.mem_cons_of_mem c hd)]

/-- The first token of a text that does not start with a blank. -/
theorem scan_of_scanToken {cs rest : List Char} {token : Token}
    (hblank : ∀ c ∈ cs.head?, isSpace c = false) (h : scanToken cs = some (token, rest)) :
    scan cs = (scan rest).map (token :: ·) := by
  cases cs with
  | nil => cases h
  | cons c cs =>
    rw [scan, if_neg (by rw [hblank c rfl]; exact Bool.false_ne_true)]
    split
    · rename_i hnone
      rw [hnone] at h
      cases h
    · rename_i found more hsome
      rw [hsome] at h
      cases h
      rfl

/-- A text stands for tokens, if what is behind it does not continue the last of them. -/
def Spells (text : List Char) (tokens : List Token) : Prop :=
  ∀ rest, Stops rest → scan (text ++ rest) = (scan rest).map (tokens ++ ·)

/-- A text stands for tokens, whatever is behind it. -/
def Closes (text : List Char) (tokens : List Token) : Prop :=
  ∀ rest, scan (text ++ rest) = (scan rest).map (tokens ++ ·)

theorem Closes.spells {text : List Char} {tokens : List Token} (h : Closes text tokens) :
    Spells text tokens :=
  fun rest _ => h rest

theorem spells_nil : Spells [] [] := by
  intro rest _
  rw [List.nil_append]
  cases scan rest <;> rfl

section texts

variable {text more : List Char} {tokens others : List Token}

theorem Closes.append (h : Closes text tokens) (hmore : Spells more others) :
    Spells (text ++ more) (tokens ++ others) := by
  intro rest hrest
  rw [List.append_assoc, h, hmore rest hrest, Option.map_map]
  congr 1
  funext found
  exact (List.append_assoc tokens others found).symm

theorem Spells.append (h : Spells text tokens) (hmore : Spells more others)
    (hstops : ∀ rest, Stops rest → Stops (more ++ rest)) :
    Spells (text ++ more) (tokens ++ others) := by
  intro rest hrest
  rw [List.append_assoc, h _ (hstops rest hrest), hmore rest hrest, Option.map_map]
  congr 1
  funext found
  exact (List.append_assoc tokens others found).symm

/-- Blanks in front of a text do not count. -/
theorem Spells.indented (h : Spells text tokens) {blanks : List Char}
    (hblanks : ∀ c ∈ blanks, isSpace c = true) : Spells (blanks ++ text) tokens := by
  intro rest hrest
  rw [List.append_assoc, scan_blanks hblanks, h rest hrest]

/-- Blanks behind a text do not count. -/
theorem Spells.trailed (h : Spells text tokens) {blanks : List Char}
    (hblanks : ∀ c ∈ blanks, isSpace c = true) : Spells (text ++ blanks) tokens := by
  have hspace : ∀ c, isSpace c = true → Numeral.isNumberChar c = false ∧ c.isAlpha = false := by
    intro c hc
    simp only [isSpace, Bool.or_eq_true, beq_iff_eq] at hc
    rcases hc with ((rfl | rfl) | rfl) | rfl <;> exact ⟨rfl, rfl⟩
  intro rest hrest
  have hstops : Stops (blanks ++ rest) := by
    cases blanks with
    | nil => exact hrest
    | cons c blanks =>
      obtain ⟨hnumber, hletter⟩ := hspace c (hblanks c List.mem_cons_self)
      exact stops_cons hnumber hletter _
  rw [List.append_assoc, h _ hstops, scan_blanks hblanks]

theorem closes_mark {token : Token} (h : token ∈ marks) : Closes token.render [token] := by
  intro rest
  refine scan_of_scanToken ?_ (scanToken_mark h rest)
  simp only [marks, List.mem_cons, List.not_mem_nil, or_false] at h
  rcases h with rfl | rfl | rfl | rfl | rfl | rfl <;> exact fun c hc => by cases hc; rfl

theorem closes_quote (s : String) : Closes (quote s) [.string s] := by
  intro rest
  refine scan_of_scanToken ?_ (scanToken_quote s rest)
  intro c hc
  cases hc
  rfl

theorem spells_digits (n : Nat) : Spells (Decimal.digits n) [.natural n] := by
  intro rest hrest
  refine scan_of_scanToken ?_ (scanToken_digits n hrest)
  obtain ⟨d, hd, more, hdigits, -⟩ := exists_digits_eq n
  rw [hdigits]
  intro c hc
  cases hc
  exact (of_digitChar d hd).2.2.2

theorem spells_word {token : Token} (h : token ∈ [null, bool true, bool false]) :
    Spells token.render [token] := by
  intro rest hrest
  refine scan_of_scanToken ?_ (scanToken_word h hrest)
  simp only [List.mem_cons, List.not_mem_nil, or_false] at h
  rcases h with rfl | rfl | rfl <;> exact fun c hc => by cases hc; rfl

/-- A text between brackets. -/
theorem Spells.enclosed (h : Spells text tokens) {opening closing : Token}
    (hopening : opening ∈ marks) (hclosing : closing ∈ marks) :
    Spells (opening.render ++ (text ++ closing.render)) (opening :: (tokens ++ [closing])) :=
  (closes_mark hopening).append
    (h.append (closes_mark hclosing).spells fun rest _ => stops_mark hclosing rest)

/-- Elements with commas between them. -/
theorem spells_intercalate {elements : List (List Char)} {spelled : List (List Token)}
    (h : List.Forall₂ Spells elements spelled) :
    Spells (List.intercalate [','] elements) (List.intercalate [.comma] spelled) := by
  have hcomma : comma ∈ marks := by decide
  induction h with
  | nil => exact spells_nil
  | @cons element tokens elements spelled hfirst hrest ih =>
    cases hrest with
    | nil =>
      rw [List.intercalate_singleton, List.intercalate_singleton]
      exact hfirst
    | cons hsecond hmore =>
      rw [List.intercalate_cons_cons, List.intercalate_cons_cons, List.append_assoc,
        List.append_assoc]
      exact hfirst.append ((closes_mark hcomma).append ih) fun rest _ => stops_cons rfl rfl _

end texts

end Token

/-! ## Values -/

namespace Json

open Token

/-- A value that is made of nothing but what documents are written with: every part of it has a
value, and every number is a numeral. -/
inductive IsPlain : Json → Prop where
  | null : IsPlain null
  | bool (value : Bool) : IsPlain (bool value)
  | natural (value : Nat) : IsPlain (natural value)
  | string (value : String) : IsPlain (string value)
  | array {items : List Json} (parts : ∀ item ∈ items, IsPlain item) : IsPlain (array items)
  | object {fields : List (String × Json)} (parts : ∀ field ∈ fields, IsPlain field.2) :
    IsPlain (object fields)

/-- The tokens of a field of an object. -/
def fieldToken (field : String × Json) : List Token :=
  .string field.1 :: .colon :: field.2.tokens

theorem itemTokens_eq_map (items : List Json) : itemTokens items = items.map tokens := by
  induction items with
  | nil => rfl
  | cons item rest ih => rw [itemTokens, ih, List.map_cons]

theorem fieldTokens_eq_map (fields : List (String × Json)) :
    fieldTokens fields = fields.map fieldToken := by
  induction fields with
  | nil => rfl
  | cons field rest ih => rw [fieldTokens, ih, List.map_cons, fieldToken]

theorem prettyItems_eq_map (level : Nat) (items : List Json) :
    prettyItems level items = items.map (prettyAt level) := by
  induction items with
  | nil => rfl
  | cons item rest ih => rw [prettyItems, ih, List.map_cons]

theorem prettyFields_eq_map (level : Nat) (fields : List (String × Json)) :
    prettyFields level fields =
      fields.map fun field => quote field.1 ++ [':', ' '] ++ prettyAt level field.2 := by
  induction fields with
  | nil => rfl
  | cons field rest ih => rw [prettyFields, ih, List.map_cons]

/-- The text of elements with commas between them, from the tokens of each. -/
theorem flatMap_render_intercalate (elements : List (List Token)) :
    (List.intercalate [.comma] elements).flatMap Token.render =
      List.intercalate [','] (elements.map (·.flatMap Token.render)) := by
  induction elements with
  | nil => rfl
  | cons element elements ih =>
    cases elements with
    | nil =>
      rw [List.map_cons, List.map_nil, List.intercalate_singleton, List.intercalate_singleton]
    | cons second rest =>
      rw [List.intercalate_cons_cons, List.flatMap_append, List.flatMap_append, ih]
      exact List.intercalate_cons_cons.symm

/-- A name, a colon with or without a blank behind it, and a value make up a field. -/
theorem spells_field {field : String × Json} {text : List Char} (h : Spells text field.2.tokens)
    {blanks : List Char} (hblanks : ∀ c ∈ blanks, isSpace c = true) :
    Spells (quote field.1 ++ (':' :: blanks) ++ text) (fieldToken field) := by
  have hcolon : Closes [':'] [.colon] := @closes_mark .colon (by decide)
  have hvalue := (closes_quote field.1).append (hcolon.append (h.indented hblanks))
  rwa [← List.append_assoc, ← List.append_assoc, List.append_assoc (quote field.1)] at hvalue

/-- Elements that are written one by one. -/
theorem forall₂_spells_map {α : Type} {elements : List α} {write : α → List Char}
    {spelled : α → List Token}
    (h : ∀ element ∈ elements, Spells (write element) (spelled element)) :
    List.Forall₂ Spells (elements.map write) (elements.map spelled) := by
  rw [List.forall₂_map_left_iff, List.forall₂_map_right_iff, List.forall₂_same]
  exact h

/-- Both words for truth values are read back. -/
theorem spells_bool (value : Bool) : Spells (Token.bool value).render [.bool value] := by
  cases value with
  | true => exact @spells_word (.bool true) (by decide)
  | false => exact @spells_word (.bool false) (by decide)

/-- The compact text of elements between brackets. -/
theorem spells_compact_enclosed {opening closing : Token} (hopening : opening ∈ marks)
    (hclosing : closing ∈ marks) {elements : List (List Token)}
    (h : ∀ element ∈ elements, Spells (element.flatMap Token.render) element) :
    Spells ((opening :: (List.intercalate [.comma] elements ++ [closing])).flatMap Token.render)
      (opening :: (List.intercalate [.comma] elements ++ [closing])) := by
  have hinner : Spells (List.intercalate [','] (elements.map (·.flatMap Token.render)))
      (List.intercalate [.comma] (elements.map id)) :=
    spells_intercalate (forall₂_spells_map h)
  rw [List.map_id] at hinner
  rw [List.flatMap_cons, List.flatMap_append, flatMap_render_intercalate, List.flatMap_singleton]
  exact hinner.enclosed hopening hclosing

/-- The compact text of a value is cut into its tokens. -/
theorem spells_compactChars {json : Json} (h : json.IsPlain) :
    Spells json.compactChars json.tokens := by
  induction h with
  | null => exact @spells_word .null (by decide)
  | bool value =>
    rw [compactChars, tokens, List.flatMap_singleton]
    exact spells_bool value
  | natural value =>
    rw [compactChars, tokens, List.flatMap_singleton]
    exact spells_digits value
  | string value =>
    rw [compactChars, tokens, List.flatMap_singleton]
    exact (closes_quote value).spells
  | @array items _ ih =>
    rw [compactChars, tokens, itemTokens_eq_map]
    refine spells_compact_enclosed (by decide) (by decide) ?_
    intro element helement
    obtain ⟨item, hitem, rfl⟩ := List.mem_map.mp helement
    exact ih item hitem
  | @object fields _ ih =>
    rw [compactChars, tokens, fieldTokens_eq_map]
    refine spells_compact_enclosed (by decide) (by decide) ?_
    intro element helement
    obtain ⟨field, hfield, rfl⟩ := List.mem_map.mp helement
    have hspells := @spells_field field _ (ih field hfield) [] (fun c hc => by cases hc)
    rwa [List.append_assoc] at hspells

/-- A new line consists of blanks. -/
theorem isSpace_of_mem_newLine {level : Nat} {c : Char} (h : c ∈ newLine level) :
    isSpace c = true := by
  rcases List.mem_cons.mp h with rfl | hc
  · rfl
  · rw [List.eq_of_mem_replicate hc]
    rfl

/-- The pretty text of elements between brackets. -/
theorem spells_block (level : Nat) {opening closing : Token} (hopening : opening ∈ marks)
    (hclosing : closing ∈ marks) {elements : List (List Char)} {spelled : List (List Token)}
    (h : List.Forall₂ Spells elements spelled) :
    Spells (block level opening closing elements)
      (opening :: (List.intercalate [.comma] spelled ++ [closing])) := by
  unfold block
  cases h with
  | nil => exact spells_nil.enclosed hopening hclosing
  | @cons element tokens elements spelled hfirst hrest =>
    have hlines : List.Forall₂ Spells
        ((element :: elements).map fun element => newLine (level + 1) ++ element)
        (tokens :: spelled) := by
      rw [List.forall₂_map_left_iff]
      exact (List.Forall₂.cons hfirst hrest).imp fun _ _ hspells =>
        hspells.indented fun c => isSpace_of_mem_newLine
    have hinner := (spells_intercalate hlines).trailed fun c => @isSpace_of_mem_newLine level c
    rw [if_neg (by simp), List.append_assoc, List.append_assoc,
      ← List.append_assoc _ (newLine level)]
    exact hinner.enclosed hopening hclosing

/-- The pretty text of a value is cut into its tokens. -/
theorem spells_prettyAt {json : Json} (h : json.IsPlain) (level : Nat) :
    Spells (prettyAt level json) json.tokens := by
  induction h generalizing level with
  | null => exact @spells_word .null (by decide)
  | bool value =>
    rw [prettyAt, tokens]
    exact spells_bool value
  | natural value =>
    rw [prettyAt, tokens]
    exact spells_digits value
  | string value =>
    rw [prettyAt, tokens]
    exact (closes_quote value).spells
  | @array items _ ih =>
    rw [prettyAt, tokens, itemTokens_eq_map, prettyItems_eq_map]
    exact spells_block level (by decide) (by decide)
      (forall₂_spells_map fun item hitem => ih item hitem (level + 1))
  | @object fields _ ih =>
    rw [prettyAt, tokens, fieldTokens_eq_map, prettyFields_eq_map]
    refine spells_block level (by decide) (by decide) (forall₂_spells_map fun field hfield => ?_)
    exact @spells_field field _ (ih field hfield (level + 1)) [' ']
      (List.forall_mem_singleton.mpr rfl)

/-- A text that spells tokens is cut into them. -/
theorem scan_of_spells {text : List Char} {tokens : List Token} (h : Spells text tokens) :
    scan text = some tokens := by
  have hscan := h [] stops_nil
  rw [List.append_nil, scan, Option.map_some, List.append_nil] at hscan
  exact hscan

end Json

end SourceEvolution
