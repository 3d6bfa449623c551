import Mathlib.Tactic.SplitIfs
import Wiring.Proofs.Snapshots

/-!
# `Wiring.Proofs.Documents`: the reader undoes the writer

A document is written with escapes, indentation and decimal numbers, and read back one character at
a time. `undone_of_isReadable` is the main fact: what is written for plain data is read as that
data, without its places. `Value.isReadable` says which data this is: the whole numbers have no more
digits than the reader takes, and no mapping repeats a key.

The facts about the reader all speak about a written text in front of some rest, and say that the
reader stops where the text ends. For a number this needs a rest that does not go on with the number
(`Ends`), and what follows a value in a document is a bracket, a comma, a line break or nothing.
-/

set_option autoImplicit false

namespace Wiring

/-! ### Data that a text determines -/

namespace Value

/-- The texts among the keys of a mapping. -/
def textKeys (entries : List (Value × Value)) : List String :=
  entries.filterMap fun e => match e.1 with
    | .text s => some s
    | _ => none

mutual

/-- Whether a value is plain data that its text determines: no whole number has more digits than the
reader takes, and no mapping repeats a key. -/
def isReadable : Value → Bool
  | .null | .bool _ | .text _ => true
  | .int n => decide ((Nat.toDigits 10 n.natAbs).length ≤ Json.digitLimit)
  | .list _ items => areReadable items
  | .map _ entries => decide (textKeys entries).Nodup && entriesAreReadable entries
  | _ => false

/-- Whether all items of a list are readable. -/
def areReadable : List Value → Bool
  | [] => true
  | v :: rest => isReadable v && areReadable rest

/-- Whether all entries of a mapping are readable values under texts. -/
def entriesAreReadable : List (Value × Value) → Bool
  | [] => true
  | (.text _, v) :: rest => isReadable v && entriesAreReadable rest
  | _ => false

end

mutual

/-- Readable data is plain data. -/
theorem isJson_of_isReadable : ∀ v : Value, v.isReadable = true → v.isJson = true
  | .null, _ | .bool _, _ | .int _, _ | .text _, _ => rfl
  | .list _ items, h => by
    rw [isReadable] at h
    rw [isJson]
    exact areJson_of_areReadable items h
  | .map _ entries, h => by
    rw [isReadable, Bool.and_eq_true] at h
    rw [isJson]
    exact entriesAreJson_of_entriesAreReadable entries h.2

/-- Readable items are plain data. -/
theorem areJson_of_areReadable : ∀ items : List Value, areReadable items = true →
    areJson items = true
  | [], _ => rfl
  | v :: rest, h => by
    rw [areReadable, Bool.and_eq_true] at h
    rw [areJson, isJson_of_isReadable v h.1, areJson_of_areReadable rest h.2]
    rfl

/-- Readable entries are plain data. -/
theorem entriesAreJson_of_entriesAreReadable : ∀ entries : List (Value × Value),
    entriesAreReadable entries = true → entriesAreJson entries = true
  | [], _ => rfl
  | (.text _, v) :: rest, h => by
    rw [entriesAreReadable, Bool.and_eq_true] at h
    rw [entriesAreJson, isJson_of_isReadable v h.1, entriesAreJson_of_entriesAreReadable rest h.2]
    rfl

end

/-- Only a text is the same key as a text. -/
theorem sameScalar_text {k : Value} {s : String} (h : sameScalar k (.text s) = true) :
    k = .text s := by
  cases k <;> simp_all [sameScalar, sameNumber]

/-- A new key is listed last. -/
theorem put_text {s : String} {v : Value} {entries : List (Value × Value)}
    (h : s ∉ textKeys entries) : put (.text s) v entries = entries ++ [(.text s, v)] := by
  induction entries with
  | nil => rfl
  | cons e rest ih =>
    obtain ⟨k, x⟩ := e
    have hk : ¬ sameScalar k (.text s) = true := by
      intro he
      rw [sameScalar_text he] at h
      exact h (by simp [textKeys])
    have hrest : s ∉ textKeys rest := by
      intro hm
      obtain ⟨e, he, hs⟩ := List.mem_filterMap.mp hm
      exact h (List.mem_filterMap.mpr ⟨e, List.mem_cons_of_mem _ he, hs⟩)
    rw [put, if_neg hk, ih hrest, List.cons_append]

/-- The texts among the keys of two lists of entries. -/
theorem textKeys_append (es fs : List (Value × Value)) :
    textKeys (es ++ fs) = textKeys es ++ textKeys fs := List.filterMap_append

end Value

namespace Json

open Wiring.Decimal

/-! ### Texts -/

/-- A hexadecimal digit is read as its value. -/
theorem hexValue?_hexDigit {d : Nat} (h : d < 16) : hexValue? (Text.hexDigit d) = some d := by
  have : ∀ d : Fin 16, hexValue? (Text.hexDigit d) = some d.val := by decide
  exact this ⟨d, h⟩

/-- Four hexadecimal digits are read as the number that they were written for. -/
theorem unit?_hexDigits {n : Nat} (h : n < 0x10000) (rest : List Char) :
    unit? (Text.hexDigits 4 n ++ rest) = some (n, rest) := by
  simp only [Text.hexDigits, List.nil_append, List.cons_append, unit?]
  rw [hexValue?_hexDigit (by omega), hexValue?_hexDigit (by omega), hexValue?_hexDigit (by omega),
    hexValue?_hexDigit (by omega)]
  simp only [Option.some.injEq, Prod.mk.injEq, and_true]
  omega

/-- A character of one unit is read from that unit. -/
theorem unitChar_of_toNat {c : Char} (h : c.toNat ≤ 0xffff) (rest : List Char) :
    unitChar c.toNat rest = (c, rest) := by
  have hv := c.valid
  simp only [UInt32.isValidChar, Nat.isValidChar] at hv
  have : c.val.toNat = c.toNat := rfl
  unfold unitChar
  rw [if_neg (by simp; omega), if_neg (by simp; omega), Char.ofNat_toNat]

/-- Two units of a pair are read as one character. -/
theorem unitChar_pair {u v : Nat} (hu : 0xd800 ≤ u ∧ u < 0xdc00) (hv : 0xdc00 ≤ v ∧ v < 0xe000)
    (rest : List Char) :
    unitChar u (escapeUnit v ++ rest)
      = (Char.ofNat (0x10000 + (u - 0xd800) * 0x400 + (v - 0xdc00)), rest) := by
  unfold unitChar escapeUnit
  rw [if_pos (by simpa using hu)]
  simp only [List.cons_append]
  rw [unit?_hexDigits (by omega)]
  simp only
  rw [if_pos (by simpa using hv)]

/-- A character has a number of at most twenty one bits. -/
theorem toNat_lt (c : Char) : c.toNat < 0x110000 := by
  have hv := c.valid
  simp only [UInt32.isValidChar, Nat.isValidChar] at hv
  have : c.val.toNat = c.toNat := rfl
  omega

/-- Reading the escape of one unit. -/
theorem textRest_escapeUnit {u : Nat} (hu : u < 0x10000) (fuel : Nat) (rest : List Char) :
    textRest (fuel + 1) (escapeUnit u ++ rest)
      = (textRest fuel (unitChar u rest).2).map fun r => ((unitChar u rest).1 :: r.1, r.2) := by
  rw [escapeUnit, List.cons_append, List.cons_append, textRest, unit?_hexDigits hu]

/-- The number of a character from its two units. -/
theorem pair_units {n : Nat} (hn : 0x10000 ≤ n) :
    0x10000 + (0xd800 + (n - 0x10000) / 0x400 - 0xd800) * 0x400
      + (0xdc00 + (n - 0x10000) % 0x400 - 0xdc00) = n := by
  omega

/-- Reading a character that stands for itself. -/
theorem textRest_plain {c : Char} (hq : c ≠ '"') (hb : c ≠ '\\') (hc : 0x20 ≤ c.toNat)
    (fuel : Nat) (rest : List Char) :
    textRest (fuel + 1) (c :: rest) = (textRest fuel rest).map fun r => (c :: r.1, r.2) := by
  rw [textRest]
  · rw [if_neg (by simp [hb]; omega)]
  · exact hq
  · exact fun _ h _ => hb h
  · exact fun _ _ h _ => hb h

/-- Reading an escaped character gives the character. -/
theorem textRest_escapeChar (c : Char) (fuel : Nat) (rest : List Char) :
    textRest (fuel + 1) (escapeChar c ++ rest)
      = (textRest fuel rest).map fun r => (c :: r.1, r.2) := by
  have hlt := toNat_lt c
  unfold escapeChar
  split_ifs with hq hb hn hr ht h8 hc hp hu
  · subst hq; rfl
  · subst hb; rfl
  · subst hn; rfl
  · subst hr; rfl
  · subst ht; rfl
  · have : Char.ofNat 0x8 = c := by rw [← h8, Char.ofNat_toNat]
    subst this; rfl
  · have : Char.ofNat 0xc = c := by rw [← hc, Char.ofNat_toNat]
    subst this; rfl
  · rw [List.cons_append, List.nil_append]
    simp only [Bool.and_eq_true, decide_eq_true_eq] at hp
    exact textRest_plain hq hb hp.1 fuel rest
  · rw [textRest_escapeUnit (by omega), unitChar_of_toNat hu]
  · rw [List.append_assoc, textRest_escapeUnit (by omega), unitChar_pair (by omega) (by omega),
      pair_units (by omega), Char.ofNat_toNat]

theorem escapeChar_ne_nil (c : Char) : escapeChar c ≠ [] := by
  unfold escapeChar escapeUnit
  split_ifs <;> simp

/-- Reading escaped characters up to a quote gives the characters. -/
theorem textRest_flatMap (cs rest : List Char) :
    ∀ {fuel : Nat}, cs.length < fuel →
      textRest fuel (cs.flatMap escapeChar ++ '"' :: rest) = some (cs, rest) := by
  induction cs with
  | nil =>
    intro fuel hf
    obtain ⟨n, rfl⟩ := Nat.exists_eq_add_of_lt hf
    rfl
  | cons c cs ih =>
    intro fuel hf
    obtain ⟨n, rfl⟩ := Nat.exists_eq_add_of_lt hf
    rw [List.flatMap_cons, List.append_assoc, textRest_escapeChar,
      ih (by simp only [List.length_cons]; omega)]
    rfl

/-- No character is written as nothing. -/
theorem length_le_flatMap (cs : List Char) : cs.length ≤ (cs.flatMap escapeChar).length := by
  induction cs with
  | nil => exact Nat.le_refl 0
  | cons c cs ih =>
    have := List.length_pos_of_ne_nil (escapeChar_ne_nil c)
    simp only [List.flatMap_cons, List.length_append, List.length_cons]
    omega

/-- Reading a written text gives the text. -/
theorem text_quoted (s : String) (rest : List Char) :
    text (s.toList.flatMap escapeChar ++ '"' :: rest) = .ok (s, rest) := by
  have := length_le_flatMap s.toList
  unfold text
  rw [textRest_flatMap _ _ (by simp only [List.length_append, List.length_cons]; omega)]
  simp

/-! ### Numbers -/

/-- What follows ends a number. -/
def Ends (rest : List Char) : Prop :=
  ∀ c cs, rest = c :: cs → c.isDigit = false ∧ c ≠ '.' ∧ c ≠ 'e' ∧ c ≠ 'E'

/-- The digits in front of what ends a number. -/
theorem takeWhile_isDigit {ds rest : List Char} (hds : ∀ c ∈ ds, c.isDigit = true) (h : Ends rest) :
    (ds ++ rest).takeWhile Char.isDigit = ds ∧ (ds ++ rest).dropWhile Char.isDigit = rest := by
  have hrest : rest.takeWhile Char.isDigit = [] ∧ rest.dropWhile Char.isDigit = rest := by
    cases rest with
    | nil => exact ⟨rfl, rfl⟩
    | cons c cs => simp [(h c cs rfl).1]
  rw [List.takeWhile_append_of_pos hds, List.dropWhile_append_of_pos hds, hrest.1, hrest.2]
  simp

/-- The digits of a number have its value. -/
theorem digitsValue_toDigits (n : Nat) : digitsValue (Nat.toDigits 10 n) = n :=
  Nat.ofDigitChars_ten_toDigits

/-- The digits of a number other than zero do not begin with a zero. -/
theorem head_toDigits {n : Nat} (h : 0 < n) : (Nat.toDigits 10 n).head? ≠ some '0' := by
  induction n using Nat.base_induction 10 (by decide) with
  | single m hm =>
    have : ∀ m : Fin 10, 0 < m.val → (Nat.toDigits 10 m.val).head? ≠ some '0' := by decide
    exact this ⟨m, hm⟩ h
  | digit m k hk hm ih =>
    rw [← Nat.toDigits_append_toDigits (by decide) hm hk,
      List.head?_append_of_ne_nil _ Nat.toDigits_ne_nil]
    exact ih hm

/-- The digits of a number are read as one whole number. -/
theorem wholeDigits_toDigits (n : Nat) {rest : List Char} (h : Ends rest) :
    wholeDigits (Nat.toDigits 10 n ++ rest) = some (Nat.toDigits 10 n, rest) := by
  rcases Nat.eq_zero_or_pos n with rfl | hn
  · rw [Nat.toDigits_zero]
    rfl
  · have hds : ∀ c ∈ Nat.toDigits 10 n, c.isDigit = true := fun c hc =>
      Nat.isDigit_of_mem_toDigits (by decide) (by decide) hc
    obtain ⟨htake, hdrop⟩ := takeWhile_isDigit hds h
    unfold wholeDigits
    split
    · rename_i cs hcs
      have := head_toDigits hn
      have hhead : (Nat.toDigits 10 n ++ rest).head? = (Nat.toDigits 10 n).head? :=
        List.head?_append_of_ne_nil _ Nat.toDigits_ne_nil
      rw [← hhead, hcs] at this
      exact absurd rfl this
    · simp only [htake, hdrop]
      rw [if_neg]
      simp

/-- A number of few enough digits is read as it was written. -/
theorem number_toDigits (negative : Bool) {n : Nat} {rest : List Char}
    (hn : (Nat.toDigits 10 n).length ≤ digitLimit) (h : Ends rest) :
    number negative (Nat.toDigits 10 n ++ rest)
      = .ok (.int (if negative then -(n : Int) else n), rest) := by
  have hfraction : fractionDigits rest = none := by
    unfold fractionDigits
    split
    · exact absurd rfl (h _ _ rfl).2.1
    · rfl
  have hexponent : exponentPart rest = none := by
    unfold exponentPart
    split
    · rename_i c cs
      have := h c cs rfl
      rw [if_neg (by simp [this])]
    · rfl
  unfold number
  simp only [wholeDigits_toDigits n h, hfraction, hexponent, Option.getD_none, List.isEmpty_nil,
    Bool.not_true, Bool.false_eq_true, if_false]
  rw [if_neg (Nat.not_lt.mpr hn), digitsValue_toDigits]

/-! ### Steps of the reader -/

variable {α β : Type} {fuel : Nat} {cs rest : List Char}

/-- The second reader goes on with what the first one leaves. -/
theorem read_bind_ok {w : Read α} {f : α → Read β} {a : α} {s r : List Char}
    (h : w s = .ok (a, r)) : (w >>= f) s = f a r := by
  show StateT.bind w f s = _
  unfold StateT.bind
  simp only [h, bind, Except.bind]

/-- A quote begins a text. -/
theorem value_text {s : String} (h : text cs = .ok (s, rest)) :
    value (fuel + 1) ('"' :: cs) = .ok (.text s, rest) := by
  rw [value, read_bind_ok (a := '"' :: cs) (r := '"' :: cs) rfl]
  show (text >>= fun s => pure (Value.text s)) cs = _
  rw [read_bind_ok h]
  rfl

/-- Two brackets are the list without items. -/
theorem value_empty (hcs : cs.dropWhile isBlank = ']' :: rest) :
    value (fuel + 1) ('[' :: cs) = .ok (.list none [], rest) := by
  rw [value, read_bind_ok (a := '[' :: cs) (r := '[' :: cs) rfl]
  simp only [hcs]
  rfl

/-- A bracket begins a list. -/
theorem value_list {vs : List Value} (hcs : ∀ r, cs.dropWhile isBlank ≠ ']' :: r)
    (h : items fuel (cs.dropWhile isBlank) = .ok (vs, rest)) :
    value (fuel + 1) ('[' :: cs) = .ok (.list none vs, rest) := by
  rw [value, read_bind_ok (a := '[' :: cs) (r := '[' :: cs) rfl]
  simp only
  rw [read_bind_ok (a := ⟨⟩) (r := cs.dropWhile isBlank) rfl]
  rw [read_bind_ok (a := cs.dropWhile isBlank) (r := cs.dropWhile isBlank) rfl]
  refine Eq.trans (b := (items fuel >>= fun vs => pure (Value.list none vs)) _)
    (congrFun ?_ _) ?_
  · split
    · rename_i r hr
      exact absurd hr (hcs r)
    · rfl
  · rw [read_bind_ok h]
    rfl

/-- What begins neither a text nor a list nor a mapping is a word or a number. -/
theorem value_named {c : Char} (hc : c ≠ '"' ∧ c ≠ '[' ∧ c ≠ '\x7b') :
    value (fuel + 1) (c :: cs) = named (c :: cs) := by
  rw [value, read_bind_ok (a := c :: cs) (r := c :: cs) rfl]
  refine congrFun ?_ _
  split <;> simp_all

/-- A bracket behind an item ends the list. -/
theorem items_last {v : Value} {mid : List Char} (h : value fuel cs = .ok (v, mid))
    (hmid : mid.dropWhile isBlank = ']' :: rest) :
    items (fuel + 1) cs = .ok ([v], rest) := by
  rw [items, read_bind_ok h, read_bind_ok (a := ()) (r := ']' :: rest) (by rw [← hmid]; rfl)]
  rfl

/-- A comma behind an item goes on with the list. -/
theorem items_more {v : Value} {vs : List Value} {mid next : List Char}
    (h : value fuel cs = .ok (v, mid)) (hmid : mid.dropWhile isBlank = ',' :: next)
    (hnext : items fuel (next.dropWhile isBlank) = .ok (vs, rest)) :
    items (fuel + 1) cs = .ok (v :: vs, rest) := by
  rw [items, read_bind_ok h, read_bind_ok (a := ()) (r := ',' :: next) (by rw [← hmid]; rfl)]
  rw [read_bind_ok (a := ',' :: next) (r := ',' :: next) rfl]
  simp only
  rw [read_bind_ok (a := ⟨⟩) (r := next.dropWhile isBlank) rfl, read_bind_ok hnext]
  rfl

/-- Two braces are the mapping without entries. -/
theorem value_emptyMap (hcs : cs.dropWhile isBlank = '\x7d' :: rest) :
    value (fuel + 1) ('\x7b' :: cs) = .ok (.map none [], rest) := by
  rw [value, read_bind_ok (a := '\x7b' :: cs) (r := '\x7b' :: cs) rfl]
  simp only [hcs]
  rfl

/-- A brace begins a mapping. -/
theorem value_map {es : List (Value × Value)} (hcs : ∀ r, cs.dropWhile isBlank ≠ '\x7d' :: r)
    (h : entries fuel [] (cs.dropWhile isBlank) = .ok (es, rest)) :
    value (fuel + 1) ('\x7b' :: cs) = .ok (.map none es, rest) := by
  rw [value, read_bind_ok (a := '\x7b' :: cs) (r := '\x7b' :: cs) rfl]
  simp only
  rw [read_bind_ok (a := ⟨⟩) (r := cs.dropWhile isBlank) rfl]
  rw [read_bind_ok (a := cs.dropWhile isBlank) (r := cs.dropWhile isBlank) rfl]
  refine Eq.trans (b := (entries fuel [] >>= fun es => pure (Value.map none es)) _)
    (congrFun ?_ _) ?_
  · split
    · rename_i r hr
      exact absurd hr (hcs r)
    · rfl
  · rw [read_bind_ok h]
    rfl

/-- A brace behind an entry ends the mapping. -/
theorem entries_last {seen : List (Value × Value)} {key : String} {v : Value}
    {afterKey colon m : List Char}
    (hkey : text cs = .ok (key, afterKey)) (hcolon : afterKey.dropWhile isBlank = ':' :: colon)
    (hv : value fuel (colon.dropWhile isBlank) = .ok (v, m))
    (hmid : m.dropWhile isBlank = '\x7d' :: rest) :
    entries (fuel + 1) seen ('"' :: cs) = .ok (Value.put (.text key) v seen, rest) := by
  rw [entries, read_bind_ok (a := '"' :: cs) (r := '"' :: cs) rfl]
  simp only
  rw [read_bind_ok (a := ⟨⟩) (r := cs) rfl, read_bind_ok hkey,
    read_bind_ok (a := ()) (r := ':' :: colon) (by rw [← hcolon]; rfl),
    read_bind_ok (a := ':' :: colon) (r := ':' :: colon) rfl]
  simp only
  rw [read_bind_ok (a := ⟨⟩) (r := colon.dropWhile isBlank) rfl, read_bind_ok hv,
    read_bind_ok (a := ()) (r := '\x7d' :: rest) (by rw [← hmid]; rfl)]
  rfl

/-- A comma behind an entry goes on with the mapping. -/
theorem entries_more {seen es : List (Value × Value)} {key : String} {v : Value}
    {afterKey colon m next : List Char}
    (hkey : text cs = .ok (key, afterKey)) (hcolon : afterKey.dropWhile isBlank = ':' :: colon)
    (hv : value fuel (colon.dropWhile isBlank) = .ok (v, m))
    (hmid : m.dropWhile isBlank = ',' :: next)
    (hnext : entries fuel (Value.put (.text key) v seen) (next.dropWhile isBlank) = .ok (es, rest)) :
    entries (fuel + 1) seen ('"' :: cs) = .ok (es, rest) := by
  rw [entries, read_bind_ok (a := '"' :: cs) (r := '"' :: cs) rfl]
  simp only
  rw [read_bind_ok (a := ⟨⟩) (r := cs) rfl, read_bind_ok hkey,
    read_bind_ok (a := ()) (r := ':' :: colon) (by rw [← hcolon]; rfl),
    read_bind_ok (a := ':' :: colon) (r := ':' :: colon) rfl]
  simp only
  rw [read_bind_ok (a := ⟨⟩) (r := colon.dropWhile isBlank) rfl, read_bind_ok hv,
    read_bind_ok (a := ()) (r := ',' :: next) (by rw [← hmid]; rfl),
    read_bind_ok (a := ',' :: next) (r := ',' :: next) rfl]
  simp only
  rw [read_bind_ok (a := ⟨⟩) (r := next.dropWhile isBlank) rfl]
  exact hnext

/-- A digit begins a number. -/
theorem named_digit {c : Char} (hc : c.isDigit = true) :
    named (c :: cs) = number false (c :: cs) := by
  have h : ∀ d, d.isDigit = false → d ≠ c := fun d hd he => by simp_all
  unfold named
  simp only [List.find?, List.isPrefixOf, String.reduceToList, beq_eq_false_iff_ne.mpr (h 'n' rfl),
    beq_eq_false_iff_ne.mpr (h 't' rfl), beq_eq_false_iff_ne.mpr (h 'f' rfl),
    beq_eq_false_iff_ne.mpr (h 'N' rfl), beq_eq_false_iff_ne.mpr (h 'I' rfl),
    beq_eq_false_iff_ne.mpr (h '-' rfl), Bool.false_and]
  split
  · rename_i he
    exact absurd (List.cons.inj he).1.symm (h '-' rfl)
  · rfl

/-- A minus sign in front of a digit begins a negative number. -/
theorem named_minus {c : Char} (hc : c.isDigit = true) :
    named ('-' :: c :: cs) = number true (c :: cs) := by
  have h : 'I' ≠ c := fun he => by simp [← he] at hc
  unfold named
  simp [List.isPrefixOf, h]

/-- The text of a whole number is read as the number. -/
theorem named_int {n : Int} (hn : (Nat.toDigits 10 n.natAbs).length ≤ digitLimit) (h : Ends rest) :
    named ((toString n).toList ++ rest) = .ok (.int n, rest) := by
  obtain ⟨c, ds, hds⟩ : ∃ c ds, Nat.toDigits 10 n.natAbs = c :: ds :=
    List.exists_cons_of_ne_nil Nat.toDigits_ne_nil
  have hc : c.isDigit = true :=
    Nat.isDigit_of_mem_toDigits (b := 10) (n := n.natAbs) (by decide) (by decide)
      (by rw [hds]; exact List.mem_cons_self)
  cases n with
  | ofNat m =>
    have : (toString (Int.ofNat m)).toList = Nat.toDigits 10 m := Nat.toList_repr
    have hm : Int.natAbs (.ofNat m) = m := rfl
    rw [hm] at hds hn
    rw [this, hds, List.cons_append, named_digit hc, ← List.cons_append, ← hds,
      number_toDigits _ hn h]
    rfl
  | negSucc m =>
    have : (toString (Int.negSucc m)).toList = '-' :: Nat.toDigits 10 (m + 1) := by
      show ("-" ++ Nat.repr (m + 1)).toList = _
      rw [String.toList_append, Nat.toList_repr]
      rfl
    have hm : Int.natAbs (.negSucc m) = m + 1 := rfl
    rw [hm] at hds hn
    rw [this, List.cons_append, hds, List.cons_append, named_minus hc, ← List.cons_append, ← hds,
      number_toDigits _ hn h]
    rfl

/-! ### Layout -/

/-- A line break with indentation as characters. -/
def indent (level : Nat) : List Char := (lineBreak level).toList

/-- An indentation is a line break and spaces. -/
theorem indent_eq (level : Nat) : indent level = '\n' :: List.replicate level ' ' := by
  simp [indent, lineBreak]

/-- An indentation is passed over. -/
theorem dropWhile_indent (level : Nat) (cs : List Char) :
    (indent level ++ cs).dropWhile isBlank = cs.dropWhile isBlank := by
  rw [indent_eq]
  refine List.dropWhile_append_of_pos ?_
  intro c hc
  rcases List.mem_cons.mp hc with rfl | hc
  · rfl
  · rw [List.eq_of_mem_replicate hc]
    rfl

/-- What is not blank is not passed over. -/
theorem dropWhile_of_not_blank {c : Char} (h : isBlank c = false) (cs : List Char) :
    (c :: cs).dropWhile isBlank = c :: cs := by
  rw [List.dropWhile_cons, h]
  rfl

/-- Parts with commas and line breaks between them. -/
def joined (level : Nat) (parts : List String) : List Char :=
  (("," ++ lineBreak level).intercalate parts).toList

@[simp] theorem joined_singleton (level : Nat) (s : String) : joined level [s] = s.toList := by
  rw [joined, String.intercalate_singleton]

@[simp] theorem joined_cons_cons (level : Nat) (s t : String) (parts : List String) :
    joined level (s :: t :: parts)
      = s.toList ++ (',' :: indent level ++ joined level (t :: parts)) := by
  simp [joined, indent, String.intercalate_cons_cons, String.toList_append]

/-- Parts between their brackets. -/
theorem toList_bracketed {opening closing : String} {o c : Char} (level : Nat) {parts : List String}
    (ho : opening.toList = [o]) (hc : closing.toList = [c]) (h : parts ≠ []) :
    (bracketed opening closing level parts).toList
      = o :: (indent (level + 1) ++ (joined (level + 1) parts ++ (indent level ++ [c]))) := by
  rw [bracketed, if_neg (by simpa using h)]
  simp [String.toList_append, ho, hc, indent, joined]

/-- The end of a text ends a number. -/
theorem ends_nil : Ends [] := by
  intro c cs h
  cases h

/-- A character that no number goes on with ends a number. -/
theorem ends_cons {c : Char} (h : c.isDigit = false ∧ c ≠ '.' ∧ c ≠ 'e' ∧ c ≠ 'E')
    (cs : List Char) : Ends (c :: cs) := by
  intro d ds he
  cases he
  exact h

/-- A line break ends a number. -/
theorem ends_indent (level : Nat) (cs : List Char) : Ends (indent level ++ cs) := by
  rw [indent_eq]
  exact ends_cons (by decide) _

/-- The text of a whole number begins with a minus sign or with a digit. -/
theorem head_toString (n : Int) :
    ∃ c cs, (toString n).toList = c :: cs ∧ (c = '-' ∨ c.isDigit = true) := by
  cases n with
  | ofNat m =>
    obtain ⟨c, ds, hds⟩ := List.exists_cons_of_ne_nil (Nat.toDigits_ne_nil (n := m) (b := 10))
    refine ⟨c, ds, Nat.toList_repr.trans hds, Or.inr ?_⟩
    exact Nat.isDigit_of_mem_toDigits (b := 10) (n := m) (by decide) (by decide)
      (by rw [hds]; exact List.mem_cons_self)
  | negSucc m =>
    refine ⟨'-', (Nat.repr (m + 1)).toList, ?_, Or.inl rfl⟩
    show ("-" ++ Nat.repr (m + 1)).toList = _
    rw [String.toList_append]
    rfl

/-- A list between its brackets begins with the opening one. -/
theorem head_bracketed {opening : String} {o : Char} (closing : String) (level : Nat)
    (parts : List String) (ho : opening.toList = [o]) :
    ∃ cs, (bracketed opening closing level parts).toList = o :: cs := by
  unfold bracketed
  split <;> simp [String.toList_append, ho]

/-- The text of a value begins with a character that is neither blank nor the end of a list. -/
theorem head_write {level : Nat} {v : Value} {s : String} (h : write? level v = some s)
    (hv : v.isReadable = true) : ∃ c cs, s.toList = c :: cs ∧ isBlank c = false ∧ c ≠ ']' := by
  cases v with
  | null =>
    cases h
    exact ⟨'n', _, rfl, by decide⟩
  | bool b =>
    cases b
    · cases h
      exact ⟨'f', _, rfl, by decide⟩
    · cases h
      exact ⟨'t', _, rfl, by decide⟩
  | int n =>
    cases h
    obtain ⟨c, cs, hcs, hc⟩ := head_toString n
    refine ⟨c, cs, hcs, ?_⟩
    rcases hc with rfl | hc
    · decide
    · constructor
      · by_contra hb
        simp only [isBlank, Bool.or_eq_true, decide_eq_true_eq, Bool.not_eq_false] at hb
        rcases hb with ((rfl | rfl) | rfl) | rfl <;> exact absurd hc (by decide)
      · rintro rfl
        exact absurd hc (by decide)
  | text s =>
    cases h
    exact ⟨'"', s.toList.flatMap escapeChar ++ ['"'], by simp [quoted], by decide⟩
  | list p items =>
    obtain ⟨parts, -, rfl⟩ := Option.map_eq_some_iff.mp h
    obtain ⟨cs, hcs⟩ := head_bracketed "]" level parts (rfl : "[".toList = ['['])
    exact ⟨'[', cs, hcs, by decide⟩
  | map p entries =>
    obtain ⟨parts, -, rfl⟩ := Option.map_eq_some_iff.mp h
    obtain ⟨cs, hcs⟩ := head_bracketed "\x7d" level parts
      (rfl : "\x7b".toList = ['\x7b'])
    exact ⟨'\x7b', cs, hcs, by decide⟩
  | _ => cases hv

/-- What was written for some parts, the first of which is not blank. -/
theorem joined_head (level : Nat) (parts : List String) {s : String} {c : Char} {cs : List Char}
    (hs : s.toList = c :: cs) : ∃ cs', joined level (s :: parts) = c :: cs' := by
  cases parts with
  | nil => exact ⟨cs, by rw [joined_singleton, hs]⟩
  | cons t rest => exact ⟨_, by rw [joined_cons_cons, hs, List.cons_append]⟩

/-- A word is read as the value that it names. -/
theorem value_word {w : String} {v : Value}
    (h : (w, v) ∈ [("null", Value.null), ("true", .bool true), ("false", .bool false)]) :
    value (fuel + 1) (w.toList ++ rest) = .ok (v.bare, rest) := by
  simp only [List.mem_cons, List.not_mem_nil, or_false, Prod.mk.injEq] at h
  rcases h with ⟨rfl, rfl⟩ | ⟨rfl, rfl⟩ | ⟨rfl, rfl⟩
  · rfl
  · rfl
  · rfl

/-- Blanks in front of parts are passed over. -/
theorem dropWhile_joined {level : Nat} {s : String} {parts : List String} {c : Char}
    {cs : List Char} (hs : s.toList = c :: cs) (hc : isBlank c = false) (rest : List Char) :
    (indent level ++ (joined level (s :: parts) ++ rest)).dropWhile isBlank
      = joined level (s :: parts) ++ rest := by
  obtain ⟨cs', hcs'⟩ := joined_head level parts hs
  rw [dropWhile_indent, hcs', List.cons_append, dropWhile_of_not_blank hc]

/-- A written list is read as its items are. -/
theorem value_bracketed {level : Nat} {s : String} {more : List String} {vs : List Value} {c : Char}
    {cs : List Char} (hs : s.toList = c :: cs) (hblank : isBlank c = false) (hend : c ≠ ']')
    (h : items fuel (joined (level + 1) (s :: more) ++ (indent level ++ ']' :: rest))
      = .ok (vs, rest)) :
    value (fuel + 1) ((bracketed "[" "]" level (s :: more)).toList ++ rest)
      = .ok (.list none vs, rest) := by
  rw [toList_bracketed (o := '[') (c := ']') level rfl rfl (List.cons_ne_nil s more)]
  simp only [List.cons_append, List.append_assoc, List.nil_append]
  refine value_list ?_ ?_
  · intro r hr
    obtain ⟨cs', hcs'⟩ := joined_head (level + 1) more hs
    rw [dropWhile_joined hs hblank, hcs', List.cons_append] at hr
    exact hend (List.cons.inj hr).1
  · rw [dropWhile_joined hs hblank]
    exact h

/-- A written mapping is read as its entries are. -/
theorem value_braced {level : Nat} {s : String} {more : List String} {es : List (Value × Value)}
    {cs : List Char} (hs : s.toList = '"' :: cs)
    (h : entries fuel [] (joined (level + 1) (s :: more) ++ (indent level ++ '\x7d' :: rest))
      = .ok (es, rest)) :
    value (fuel + 1) ((bracketed "\x7b" "\x7d" level (s :: more)).toList ++ rest)
      = .ok (.map none es, rest) := by
  rw [toList_bracketed (o := '\x7b') (c := '\x7d') level rfl rfl (List.cons_ne_nil s more)]
  simp only [List.cons_append, List.append_assoc, List.nil_append]
  refine value_map ?_ ?_
  · intro r hr
    obtain ⟨cs', hcs'⟩ := joined_head (level + 1) more hs
    rw [dropWhile_joined hs (by rfl), hcs', List.cons_append] at hr
    exact absurd (List.cons.inj hr).1 (by decide)
  · rw [dropWhile_joined hs (by rfl)]
    exact h

/-- Brackets and line breaks take room. -/
theorem length_bracketed {opening : String} (closing : String) {o c : Char} (level : Nat)
    (ho : opening.toList = [o]) (hc : closing.toList = [c]) (s : String) (more : List String) :
    (joined (level + 1) (s :: more)).length + 2
      ≤ (bracketed opening closing level (s :: more)).toList.length := by
  rw [toList_bracketed level ho hc (List.cons_ne_nil s more)]
  simp only [List.length_cons, List.length_append, List.length_nil, indent_eq,
    List.length_replicate]
  omega

/-- The texts of the items of a list. -/
theorem writeItems?_cons {level : Nat} {v : Value} {vs : List Value} {parts : List String}
    (h : writeItems? level (v :: vs) = some parts) :
    ∃ s more, parts = s :: more ∧ write? level v = some s ∧ writeItems? level vs = some more := by
  rw [writeItems?] at h
  split at h
  · rename_i s more hs hmore
    cases h
    exact ⟨s, more, rfl, hs, hmore⟩
  · cases h

/-- The texts of the entries of a mapping. -/
theorem writeEntries?_cons {level : Nat} {k : String} {v : Value} {es : List (Value × Value)}
    {parts : List String} (h : writeEntries? level ((.text k, v) :: es) = some parts) :
    ∃ s more, parts = (quoted k ++ ": " ++ s) :: more ∧ write? level v = some s ∧
      writeEntries? level es = some more := by
  rw [writeEntries?] at h
  split at h
  · rename_i key s more hk hs hmore
    cases hk
    cases h
    exact ⟨s, more, rfl, hs, hmore⟩
  · cases h

/-- The keys of readable entries are texts. -/
theorem entriesAreReadable_cons {k v : Value} {es : List (Value × Value)}
    (h : Value.entriesAreReadable ((k, v) :: es) = true) :
    ∃ key, k = .text key ∧ v.isReadable = true ∧ Value.entriesAreReadable es = true := by
  cases k with
  | text key => exact ⟨key, rfl, Bool.and_eq_true_iff.mp h⟩
  | _ => cases h

/-- The texts of entries begin with the text of a key. -/
theorem writeEntries?_parts {level : Nat} {e : Value × Value} {es : List (Value × Value)}
    {parts : List String} (h : writeEntries? level (e :: es) = some parts)
    (hv : Value.entriesAreReadable (e :: es) = true) :
    ∃ k s more, parts = (quoted k ++ ": " ++ s) :: more := by
  obtain ⟨key, hkey, -⟩ := entriesAreReadable_cons hv
  obtain ⟨k, v⟩ := e
  subst hkey
  obtain ⟨s, more, rfl, -⟩ := writeEntries?_cons h
  exact ⟨key, s, more, rfl⟩

/-- An entry is its key in quotes, a colon and its value. -/
theorem toList_entry (key s : String) :
    (quoted key ++ ": " ++ s).toList
      = '"' :: (key.toList.flatMap escapeChar ++ '"' :: ':' :: ' ' :: s.toList) := by
  simp [quoted, String.toList_append]

/-- The key of the next entry is new. -/
theorem put_of_keys {seen es : List (Value × Value)} {key : String} {v x : Value}
    (h : (Value.textKeys (seen ++ (.text key, v) :: es)).Nodup) :
    Value.put (.text key) x seen = seen ++ [(.text key, x)] := by
  refine Value.put_text fun hm => ?_
  rw [Value.textKeys_append, List.nodup_append] at h
  exact h.2.2 key hm key (by simp [Value.textKeys]) rfl

/-- The space behind a colon is passed over. -/
theorem dropWhile_space {s : List Char} {c : Char} {cs : List Char} (hs : s = c :: cs)
    (hc : isBlank c = false) (rest : List Char) :
    (' ' :: (s ++ rest)).dropWhile isBlank = s ++ rest := by
  rw [List.dropWhile_cons, if_pos (by rfl), hs, List.cons_append, dropWhile_of_not_blank hc]

/-- A list without parts between its brackets. -/
theorem toList_bracketed_nil (opening closing : String) (level : Nat) :
    (bracketed opening closing level []).toList = opening.toList ++ closing.toList := by
  simp [bracketed, String.toList_append]

mutual

/-- Reading the text of a value gives the value. -/
theorem value_write (v : Value) {level fuel : Nat} {s : String} {rest : List Char}
    (h : write? level v = some s) (hv : v.isReadable = true) (hrest : Ends rest)
    (hfuel : s.toList.length < fuel) : value fuel (s.toList ++ rest) = .ok (v.bare, rest) := by
  obtain ⟨fuel, rfl⟩ := Nat.exists_eq_succ_of_ne_zero (Nat.ne_of_gt (Nat.zero_lt_of_lt hfuel))
  match v with
  | .null =>
    cases h
    exact value_word (v := .null) (by simp)
  | .bool b =>
    cases b
    · cases h
      exact value_word (v := .bool false) (by simp)
    · cases h
      exact value_word (v := .bool true) (by simp)
  | .int n =>
    cases h
    obtain ⟨c, cs, hcs, hc⟩ := head_toString n
    rw [hcs, List.cons_append, value_named, ← List.cons_append, ← hcs]
    · exact named_int (of_decide_eq_true hv) hrest
    · rcases hc with rfl | hc
      · decide
      · refine ⟨?_, ?_, ?_⟩ <;> rintro rfl <;> exact absurd hc (by decide)
  | .text s =>
    cases h
    have hs : (quoted s).toList ++ rest = '"' :: (s.toList.flatMap escapeChar ++ '"' :: rest) := by
      simp [quoted]
    rw [hs]
    exact value_text (text_quoted s rest)
  | .list p [] =>
    cases h
    rw [toList_bracketed_nil]
    have hend : (']' :: rest).dropWhile isBlank = ']' :: rest := rfl
    exact value_empty hend
  | .list p (v :: vs) =>
    obtain ⟨parts, hparts, rfl⟩ := Option.map_eq_some_iff.mp h
    obtain ⟨s, more, rfl, hs, -⟩ := writeItems?_cons hparts
    have hvs : Value.areReadable (v :: vs) = true := hv
    obtain ⟨c, cs, hcs, hblank, hend⟩ := head_write hs (Bool.and_eq_true_iff.mp hvs).1
    have hlength := length_bracketed "]" level (rfl : "[".toList = ['[']) rfl s more
    exact value_bracketed hcs hblank hend
      (items_write (v :: vs) (List.cons_ne_nil v vs) hparts hvs (by omega))
  | .map p [] =>
    cases h
    rw [toList_bracketed_nil]
    have hend : ('\x7d' :: rest).dropWhile isBlank = '\x7d' :: rest := rfl
    exact value_emptyMap hend
  | .map p (e :: es) =>
    obtain ⟨parts, hparts, rfl⟩ := Option.map_eq_some_iff.mp h
    obtain ⟨hkeys, hes⟩ := Bool.and_eq_true_iff.mp hv
    obtain ⟨k, s, more, rfl⟩ := writeEntries?_parts hparts hes
    have hlength := length_bracketed "\x7d" level
      (rfl : "\x7b".toList = ['\x7b']) rfl (quoted k ++ ": " ++ s) more
    exact value_braced (toList_entry k s)
      (entries_write (e :: es) (List.cons_ne_nil e es) [] hparts hes (of_decide_eq_true hkeys)
        (by omega))

/-- Reading the texts of the items of a list gives the items. -/
theorem items_write (vs : List Value) {level outer fuel : Nat} {parts : List String}
    {rest : List Char} (hvs : vs ≠ []) (h : writeItems? level vs = some parts)
    (hv : Value.areReadable vs = true) (hfuel : (joined level parts).length + 1 < fuel) :
    items fuel (joined level parts ++ (indent outer ++ ']' :: rest))
      = .ok (Value.bareItems vs, rest) := by
  obtain ⟨fuel, rfl⟩ := Nat.exists_eq_succ_of_ne_zero (Nat.ne_of_gt (Nat.zero_lt_of_lt hfuel))
  match vs with
  | [] => exact absurd rfl hvs
  | [v] =>
    obtain ⟨s, more, rfl, hs, hmore⟩ := writeItems?_cons h
    cases hmore
    rw [joined_singleton] at hfuel ⊢
    exact items_last (value_write v hs (Bool.and_eq_true_iff.mp hv).1 (ends_indent _ _) (by omega))
      (by rw [dropWhile_indent]; rfl)
  | v :: w :: ws =>
    obtain ⟨s, more, rfl, hs, hmore⟩ := writeItems?_cons h
    obtain ⟨hv, hws⟩ := Bool.and_eq_true_iff.mp hv
    obtain ⟨s', more', rfl, hs', -⟩ := writeItems?_cons hmore
    obtain ⟨c, cs, hcs, hblank, -⟩ := head_write hs' (Bool.and_eq_true_iff.mp hws).1
    simp only [joined_cons_cons, List.length_append, List.length_cons, indent_eq,
      List.length_replicate] at hfuel
    rw [joined_cons_cons]
    simp only [List.cons_append, List.append_assoc]
    refine items_more (value_write v hs hv (ends_cons (by decide) _) (by omega)) (by rfl) ?_
    rw [dropWhile_joined hcs hblank]
    exact items_write (w :: ws) (List.cons_ne_nil w ws) hmore hws (by omega)

/-- Reading the texts of the entries of a mapping gives the entries, behind those already read. -/
theorem entries_write (es : List (Value × Value)) {level outer fuel : Nat} {parts : List String}
    {rest : List Char} (hne : es ≠ []) (seen : List (Value × Value))
    (h : writeEntries? level es = some parts) (hv : Value.entriesAreReadable es = true)
    (hkeys : (Value.textKeys (seen ++ es)).Nodup) (hfuel : (joined level parts).length + 1 < fuel) :
    entries fuel seen (joined level parts ++ (indent outer ++ '\x7d' :: rest))
      = .ok (seen ++ Value.bareEntries es, rest) := by
  obtain ⟨fuel, rfl⟩ := Nat.exists_eq_succ_of_ne_zero (Nat.ne_of_gt (Nat.zero_lt_of_lt hfuel))
  match es with
  | [] => exact absurd rfl hne
  | [(k, v)] =>
    obtain ⟨key, rfl, hv, -⟩ := entriesAreReadable_cons hv
    obtain ⟨s, more, rfl, hs, hmore⟩ := writeEntries?_cons h
    cases hmore
    obtain ⟨c, cs, hcs, hblank, -⟩ := head_write hs hv
    rw [joined_singleton, toList_entry] at hfuel ⊢
    simp only [List.length_cons, List.length_append] at hfuel
    simp only [List.cons_append, List.append_assoc]
    rw [entries_last (text_quoted key _) (by rfl) (m := indent outer ++ '\x7d' :: rest) ?_
      (by rw [dropWhile_indent]; rfl), put_of_keys hkeys]
    · rfl
    · rw [dropWhile_space hcs hblank]
      exact value_write v hs hv (ends_indent _ _) (by omega)
  | (k, v) :: e :: es =>
    obtain ⟨key, rfl, hv, hes⟩ := entriesAreReadable_cons hv
    obtain ⟨s, more, rfl, hs, hmore⟩ := writeEntries?_cons h
    obtain ⟨key', s', more', rfl⟩ := writeEntries?_parts hmore hes
    obtain ⟨c, cs, hcs, hblank, -⟩ := head_write hs hv
    rw [joined_cons_cons, toList_entry] at hfuel ⊢
    simp only [List.length_cons, List.length_append, indent_eq, List.length_replicate] at hfuel
    simp only [List.cons_append, List.append_assoc]
    refine (entries_more (text_quoted key _) (by rfl) (v := v.bare)
      (m := ',' :: (indent level ++ (joined level ((quoted key' ++ ": " ++ s') :: more')
        ++ (indent outer ++ '\x7d' :: rest)))) ?_ (by rfl) ?_)
    · rw [dropWhile_space hcs hblank]
      exact value_write v hs hv (ends_cons (by decide) _) (by omega)
    · rw [dropWhile_joined (toList_entry key' s') (by rfl), put_of_keys hkeys,
        entries_write (e :: es) (List.cons_ne_nil e es) _ hmore hes ?_ (by omega)]
      · simp [Value.bareEntries]
      · simpa [Value.textKeys_append, Value.textKeys] using hkeys

end

/-- Plain data is read back from the text that is written for it. -/
theorem undone_of_isReadable {v : Value} (hv : v.isReadable = true) : Undone v := by
  intro text htext
  have h : write? 0 v = some text := by
    unfold document? at htext
    split at htext
    · exact htext
    · cases htext
  obtain ⟨c, cs, hcs, hblank, -⟩ := head_write h hv
  have hread : value (2 * text.toList.length + 2) text.toList = .ok (v.bare, []) := by
    have : value (2 * text.toList.length + 2) (text.toList ++ []) = .ok (v.bare, []) :=
      value_write v h hv ends_nil (by omega)
    rwa [List.append_nil] at this
  unfold read
  simp only
  rw [hcs, dropWhile_of_not_blank hblank, ← hcs, hread]
  rfl

end Json

end Wiring
