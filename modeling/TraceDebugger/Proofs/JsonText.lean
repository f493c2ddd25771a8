import TraceDebugger.Json.Printer
import TraceDebugger.Json.Reader
import TraceDebugger.Proofs.JsonParts

/-!
# Reading what was printed

The reader takes the compact text of a value back to the value (`Json.readDeep?_render`), provided
that all its parts are read back as they were (`Json.Exact`): there is no floating-point number in
it, whose decimals are another matter, and nothing unusable. The induction is over the nesting of
the value. The text of a whole number ends only with what follows it, so each value is read in front
of a rest that does not go on with a numeral (`Json.Ends`).

The other way round, whatever is read has only whole numbers that a text can write
(`Json.inRange_of_read?`).
-/

namespace TraceDebugger.Json

/-! ## Numerals -/

/-- A text does not go on with a numeral. -/
def Ends (cs : List Char) : Prop :=
  ∀ c rest, cs = c :: rest → c.isDigit = false ∧ c ≠ '.' ∧ c ≠ 'e' ∧ c ≠ 'E'

theorem ends_nil : Ends [] := by
  intro c rest h
  cases h

theorem ends_cons {c : Char} (h : c.isDigit = false ∧ c ≠ '.' ∧ c ≠ 'e' ∧ c ≠ 'E')
    (cs : List Char) : Ends (c :: cs) := by
  intro c' rest heq
  cases heq
  exact h

/-- What a digit is worth. -/
def digitValue (c : Char) : Nat := c.toNat - '0'.toNat

theorem leadingDigits_append {cs rest : List Char} (h : ∀ c ∈ cs, c.isDigit = true)
    (hrest : Ends rest) : leadingDigits (cs ++ rest) = (cs.map digitValue, rest) := by
  induction cs with
  | nil =>
    cases rest with
    | nil => rfl
    | cons c rest =>
      have hc := (hrest c rest rfl).1
      simp [leadingDigits, Text.digit?, hc]
  | cons c cs ih =>
    have hc := h c List.mem_cons_self
    have hcs := ih fun c' hc' => h c' (List.mem_cons_of_mem c hc')
    simp [leadingDigits, Text.digit?, hc, hcs, digitValue]

theorem ofDigits_toDigits (n : Nat) :
    Numeral.ofDigits ((Nat.toDigits 10 n).map digitValue) = n := by
  unfold Numeral.ofDigits
  rw [List.foldl_map]
  exact Nat.ofDigitChars_ten_toDigits

theorem digitValue_digitChar : ∀ n < 10, digitValue n.digitChar = n := by decide

/-- The first digit of a positive number is not zero. -/
theorem exists_toDigits_eq (n : Nat) (hn : 0 < n) :
    ∃ c cs, Nat.toDigits 10 n = c :: cs ∧ digitValue c ≠ 0 := by
  induction n using Nat.strongRecOn with
  | ind n ih =>
    rw [Nat.toDigits_eq_if (by omega)]
    by_cases hlt : n < 10
    · rw [if_pos hlt]
      refine ⟨n.digitChar, [], rfl, ?_⟩
      rw [digitValue_digitChar n hlt]
      omega
    · rw [if_neg hlt]
      obtain ⟨c, cs, heq, hc⟩ := ih (n / 10) (by omega) (by omega)
      rw [heq]
      exact ⟨c, cs ++ [(n % 10).digitChar], rfl, hc⟩

theorem whole?_toDigits (n : Nat) {rest : List Char} (hrest : Ends rest) :
    Numeral.whole? (Nat.toDigits 10 n ++ rest) = some ((Nat.toDigits 10 n).map digitValue, rest) := by
  have hdigits : ∀ c ∈ Nat.toDigits 10 n, c.isDigit = true := fun c hc =>
    Nat.isDigit_of_mem_toDigits (by omega) (by omega) hc
  unfold Numeral.whole?
  rw [leadingDigits_append hdigits hrest]
  by_cases hn : n = 0
  · subst hn
    rfl
  · obtain ⟨c, cs, heq, hc⟩ := exists_toDigits_eq n (by omega)
    rw [heq, List.map_cons]
    split
    · rename_i h
      cases h
    · rename_i h
      injection h with hdigits
      injection hdigits with hzero
      exact absurd hzero hc
    · rename_i h
      injection h with hdigits
      injection hdigits with hzero
      exact absurd hzero hc
    · rename_i h
      injection h with hdigits heq
      rw [← hdigits, ← heq]

theorem decimals?_of_ends {cs : List Char} (h : Ends cs) :
    Numeral.decimals? cs = some (none, cs) := by
  unfold Numeral.decimals?
  split
  · rename_i cs
    exact absurd rfl (h '.' cs rfl).2.1
  · rfl

theorem power?_of_ends {cs : List Char} (h : Ends cs) : Numeral.power? cs = some (none, cs) := by
  cases cs with
  | nil => rfl
  | cons c cs =>
    obtain ⟨-, -, hlower, hupper⟩ := h c cs rfl
    simp [Numeral.power?, hlower, hupper]

theorem unsigned?_toDigits (negative : Bool) (n : Nat) {rest : List Char} (hrest : Ends rest) :
    Numeral.unsigned? negative (Nat.toDigits 10 n ++ rest) =
      some (⟨negative, (Nat.toDigits 10 n).map digitValue, none, none⟩, rest) := by
  simp [Numeral.unsigned?, whole?_toDigits n hrest, decimals?_of_ends hrest, power?_of_ends hrest]

theorem toDigits_eq_cons (n : Nat) :
    ∃ c cs, Nat.toDigits 10 n = c :: cs ∧ c.isDigit = true := by
  cases heq : Nat.toDigits 10 n with
  | nil => exact absurd heq Nat.toDigits_ne_nil
  | cons c cs =>
    have hmem : c ∈ Nat.toDigits 10 n := by simp [heq]
    exact ⟨c, cs, rfl, Nat.isDigit_of_mem_toDigits (by omega) (by omega) hmem⟩

theorem intChars_eq_cons (n : Int) :
    ∃ c cs, Decimal.intChars n = c :: cs ∧ (c.isDigit = true ∨ c = '-') := by
  unfold Decimal.intChars
  split
  · exact ⟨'-', _, rfl, .inr rfl⟩
  · obtain ⟨c, cs, heq, hc⟩ := toDigits_eq_cons n.natAbs
    exact ⟨c, cs, heq, .inl hc⟩

theorem value_whole {n : Nat} (h : n ≤ Numeral.maxSignificand) :
    Numeral.value ⟨false, (Nat.toDigits 10 n).map digitValue, none, none⟩ = .int n := by
  simp [Numeral.value, ofDigits_toDigits, h]

theorem value_negative {n : Nat} (hpos : 0 < n) (h : n ≤ Numeral.maxNegative) :
    Numeral.value ⟨true, (Nat.toDigits 10 n).map digitValue, none, none⟩ = .int (-n) := by
  simp [Numeral.value, ofDigits_toDigits, hpos, h]

/-- A whole number is read back from its digits. -/
theorem read?_intChars {n : Int} (h : (int n).Exact) {rest : List Char} (hrest : Ends rest) :
    (Numeral.read? (Decimal.intChars n ++ rest)).map (fun e => (e.1.value, e.2)) =
      some (.int n, rest) := by
  obtain ⟨⟨⟨hlow, hhigh⟩, -⟩, -⟩ := h
  unfold Decimal.intChars
  by_cases hneg : n < 0
  · rw [if_pos hneg, List.cons_append]
    simp only [Numeral.read?]
    rw [unsigned?_toDigits true _ hrest, Option.map_some,
      value_negative (by omega) (by unfold Numeral.maxNegative; omega)]
    have hn : -((n.natAbs : Nat) : Int) = n := by omega
    rw [hn]
  · rw [if_neg hneg]
    obtain ⟨c, cs, heq, hc⟩ := toDigits_eq_cons n.natAbs
    have hread : Numeral.read? (Nat.toDigits 10 n.natAbs ++ rest) =
        Numeral.unsigned? false (Nat.toDigits 10 n.natAbs ++ rest) := by
      rw [heq, List.cons_append]
      unfold Numeral.read?
      split
      · rename_i heq'
        injection heq' with hminus
        rw [hminus] at hc
        exact absurd hc (by decide)
      · rfl
    rw [hread, unsigned?_toDigits false _ hrest, Option.map_some,
      value_whole (by unfold Numeral.maxSignificand; omega)]
    have hn : ((n.natAbs : Nat) : Int) = n := by omega
    rw [hn]

/-! ## Texts -/

/-- How a character comes back from its text: a control character without a short name by its
code. -/
def pieceOf (c : Char) : Piece :=
  if c.toNat < 0x20 ∧ c ∉ ['\x08', '\x0c', '\n', '\r', '\t'] then .unit c.toNat else .char c

theorem hexUnit?_toDigits : ∀ n < 32,
    List.replicate (2 - (Nat.toDigits 16 n).length) '0' ++ Nat.toDigits 16 n =
        [(n / 16).digitChar, (n % 16).digitChar] ∧
      hexUnit? '0' '0' (n / 16).digitChar (n % 16).digitChar = some n := by
  decide

theorem pieces?_controlEscape {c : Char} (h : c.toNat < 0x20) (cs : List Char) :
    pieces? (controlEscape c ++ cs) = (pieces? cs).bind fun e => some (.unit c.toNat :: e.1, e.2) := by
  obtain ⟨hdigits, hunit⟩ := hexUnit?_toDigits c.toNat h
  unfold controlEscape
  rw [hdigits]
  simp only [List.cons_append, List.nil_append, pieces?, hunit]
  rfl

theorem pieces?_bare {c : Char} (hquote : c ≠ '"') (hslash : c ≠ '\\') (h : ¬ c.toNat < 0x20)
    (cs : List Char) : pieces? (c :: cs) = (pieces? cs).bind fun e => some (.char c :: e.1, e.2) := by
  rw [pieces?.eq_def]
  split
  · rename_i heq
    cases heq
  · rename_i heq
    injection heq with hc
    exact absurd hc hquote
  · rename_i heq
    injection heq with hc
    exact absurd hc hslash
  · rename_i heq
    injection heq with hc
    exact absurd hc hslash
  · rename_i heq
    injection heq with hc hcs
    subst hc hcs
    rw [if_neg h]
    rfl

theorem pieces?_charChars (c : Char) (cs : List Char) :
    pieces? (charChars c ++ cs) = (pieces? cs).bind fun e => some (pieceOf c :: e.1, e.2) := by
  by_cases hshort : c ∈ ['"', '\\', '\x08', '\x0c', '\n', '\r', '\t']
  · simp only [List.mem_cons, List.not_mem_nil, or_false] at hshort
    rcases hshort with rfl | rfl | rfl | rfl | rfl | rfl | rfl <;> rfl
  have hnot := hshort
  simp only [List.mem_cons, List.not_mem_nil, or_false, not_or] at hnot
  obtain ⟨hquote, hslash, hb, hf, hn, hr, ht⟩ := hnot
  by_cases hcontrol : c.toNat < 0x20
  · have hchars : charChars c = controlEscape c := by
      simp [charChars, hquote, hslash, hb, hf, hn, hr, ht, hcontrol]
    have hpiece : pieceOf c = .unit c.toNat := by
      simp [pieceOf, hb, hf, hn, hr, ht, hcontrol]
    rw [hchars, hpiece, pieces?_controlEscape hcontrol]
  · have hchars : charChars c = [c] := by
      simp [charChars, hquote, hslash, hb, hf, hn, hr, ht, hcontrol]
    have hpiece : pieceOf c = .char c := by simp [pieceOf, hcontrol]
    rw [hchars, hpiece]
    exact pieces?_bare hquote hslash hcontrol cs

theorem pieces?_flatMap (cs rest : List Char) :
    pieces? (cs.flatMap charChars ++ '"' :: rest) = some (cs.map pieceOf, rest) := by
  induction cs with
  | nil => rfl
  | cons c cs ih =>
    rw [List.flatMap_cons, List.append_assoc, pieces?_charChars, ih]
    rfl

/-- A control character that is written by its code stands for itself, whatever follows. -/
theorem assemble?_pieceOf (c : Char) (ps : List Piece) :
    assemble? (pieceOf c :: ps) = (assemble? ps).map (c :: ·) := by
  unfold pieceOf
  split
  · rename_i hcontrol
    obtain ⟨hlt, -⟩ := hcontrol
    have hhigh : isHighSurrogate c.toNat = false := by
      simp [isHighSurrogate]
      omega
    have hlow : isLowSurrogate c.toNat = false := by
      simp [isLowSurrogate]
      omega
    cases ps with
    | nil => simp [assemble?, hhigh, hlow]
    | cons p ps =>
      cases p with
      | char c' => simp [assemble?, hhigh, hlow]
      | unit low => simp [assemble?, hhigh, hlow]
  · rfl

theorem assemble?_map_pieceOf (cs : List Char) : assemble? (cs.map pieceOf) = some cs := by
  induction cs with
  | nil => rfl
  | cons c cs ih =>
    rw [List.map_cons, assemble?_pieceOf, ih]
    rfl

/-- A text between quotes is read back. -/
theorem textBody?_chars (s : String) (rest : List Char) :
    textBody? (s.toList.flatMap charChars ++ '"' :: rest) = some (some s.toList, rest) := by
  unfold textBody?
  rw [pieces?_flatMap, Option.map_some, assemble?_map_pieceOf]

/-! ## Values -/

/-- The value is read back from its text, in front of any rest that ends it. Two steps for each
character are enough. -/
def ReadsBack (j : Json) : Prop :=
  ∀ fuel rest, 2 * j.chars.length ≤ fuel → Ends rest → value? fuel (j.chars ++ rest) = some (j, rest)

/-- What a value begins with: no space, and no bracket that ends a list. -/
def Starts (cs : List Char) : Prop :=
  ∃ c rest, cs = c :: rest ∧ isSpace c = false ∧ c ≠ ']'

theorem starts_append {cs : List Char} (h : Starts cs) (rest : List Char) : Starts (cs ++ rest) := by
  obtain ⟨c, cs', rfl, hspace, hclose⟩ := h
  exact ⟨c, cs' ++ rest, rfl, hspace, hclose⟩

theorem skipSpace_of_starts {cs : List Char} (h : Starts cs) : skipSpace cs = cs := by
  obtain ⟨c, rest, rfl, hspace, -⟩ := h
  simp [skipSpace, hspace]

theorem starts_numeral {c : Char} (h : c.isDigit = true ∨ c = '-') (cs : List Char) :
    Starts (c :: cs) := by
  rcases h with h | rfl
  · refine ⟨c, cs, rfl, ?_, ?_⟩
    · cases hspace : isSpace c with
      | false => rfl
      | true =>
        simp [isSpace] at hspace
        rcases hspace with ((rfl | rfl) | rfl) | rfl <;> exact absurd h (by decide)
    · rintro rfl
      exact absurd h (by decide)
  · exact ⟨'-', cs, rfl, rfl, by decide⟩

theorem starts_chars {j : Json} (h : j.Every Exact) : Starts j.chars := by
  cases j with
  | null => exact ⟨'n', _, rfl, rfl, by decide⟩
  | bool b =>
    cases b with
    | true => exact ⟨'t', _, rfl, rfl, by decide⟩
    | false => exact ⟨'f', _, rfl, rfl, by decide⟩
  | int n =>
    obtain ⟨c, cs, heq, hc⟩ := intChars_eq_cons n
    change Starts (Decimal.intChars n)
    rw [heq]
    exact starts_numeral hc cs
  | float x => exact absurd h (not_exact_float x)
  | unusable => exact absurd h not_exact_unusable
  | str s => exact ⟨'"', _, rfl, rfl, by decide⟩
  | arr items => exact ⟨'[', _, rfl, rfl, by decide⟩
  | obj entries => exact ⟨'\x7b', _, rfl, rfl, by decide⟩

/-- What begins like a numeral is read as one. -/
theorem value?_numeral {c : Char} (hc : c.isDigit = true ∨ c = '-') (fuel : Nat) (cs : List Char) :
    value? (fuel + 1) (c :: cs) = (Numeral.read? (c :: cs)).map fun e => (e.1.value, e.2) := by
  have hne : ∀ c', c'.isDigit = false ∧ c' ≠ '-' → c ≠ c' := by
    rintro c' ⟨hdigit, hminus⟩ rfl
    rcases hc with hc | hc
    · rw [hdigit] at hc
      cases hc
    · exact hminus hc
  rw [value?, skipSpace_of_starts (starts_numeral hc cs)]
  split
  · rename_i heq
    cases heq
  all_goals first
    | (rename_i heq
       injection heq with heq
       exact absurd heq (hne _ (by decide)))
    | (cases Numeral.read? (c :: cs) <;> rfl)

theorem readsBack_int {n : Int} (h : (int n).Exact) : (int n).ReadsBack := by
  intro fuel rest hfuel hrest
  have hread := read?_intChars h hrest
  change 2 * (Decimal.intChars n).length ≤ fuel at hfuel
  change value? fuel (Decimal.intChars n ++ rest) = _
  obtain ⟨c, cs, heq, hc⟩ := intChars_eq_cons n
  rw [heq, List.cons_append] at hread ⊢
  rw [heq, List.length_cons] at hfuel
  obtain ⟨f, rfl⟩ := Nat.exists_eq_add_one_of_ne_zero (show fuel ≠ 0 by omega)
  rw [value?_numeral hc, hread]

theorem readsBack_str (s : String) : (str s).ReadsBack := by
  intro fuel rest hfuel _
  change 2 * (textChars s).length ≤ fuel at hfuel
  change value? fuel (textChars s ++ rest) = _
  unfold textChars at hfuel ⊢
  rw [List.length_cons] at hfuel
  obtain ⟨f, rfl⟩ := Nat.exists_eq_add_one_of_ne_zero (show fuel ≠ 0 by omega)
  have hbody := textBody?_chars s rest
  simp [value?, skipSpace, isSpace, hbody]

/-- Items are read back one by one, up to the bracket. -/
theorem items?_charsItems {items : List Json} (hne : items ≠ []) (h : ∀ j ∈ items, j.ReadsBack)
    (rest : List Char) : ∀ fuel, 2 * (charsItems items).length + 1 ≤ fuel →
      items? fuel (charsItems items ++ ']' :: rest) = some (items, rest) := by
  induction items with
  | nil => exact absurd rfl hne
  | cons j items ih =>
    intro fuel hfuel
    obtain ⟨f, rfl⟩ := Nat.exists_eq_add_one_of_ne_zero (show fuel ≠ 0 by omega)
    have hj := h j List.mem_cons_self
    cases items with
    | nil =>
      rw [charsItems] at hfuel ⊢
      have hvalue := hj f (']' :: rest) (by omega) (ends_cons (by decide) _)
      simp [items?, hvalue, skipSpace, isSpace]
    | cons j' items =>
      have hlen : (charsItems (j :: j' :: items)).length =
          j.chars.length + (charsItems (j' :: items)).length + 1 := by
        simp [charsItems]
        omega
      have hvalue := hj f (',' :: (charsItems (j' :: items) ++ ']' :: rest)) (by omega)
        (ends_cons (by decide) _)
      have hrest := ih (by simp) (fun i hi => h i (List.mem_cons_of_mem _ hi)) f (by omega)
      rw [charsItems, List.append_assoc, List.cons_append]
      · simp [items?, hvalue, hrest, skipSpace, isSpace]
      · simp

/-- Entries are read back one by one, up to the brace. -/
theorem entries?_charsEntries {entries : List (String × Json)} (hne : entries ≠ [])
    (h : ∀ e ∈ entries, e.2.ReadsBack) (rest : List Char) :
    ∀ fuel, 2 * (charsEntries entries).length + 1 ≤ fuel →
      entries? fuel (charsEntries entries ++ '\x7d' :: rest) = some (some entries, rest) := by
  induction entries with
  | nil => exact absurd rfl hne
  | cons e entries ih =>
    obtain ⟨k, j⟩ := e
    intro fuel hfuel
    obtain ⟨f, rfl⟩ := Nat.exists_eq_add_one_of_ne_zero (show fuel ≠ 0 by omega)
    have hj : j.ReadsBack := h (k, j) List.mem_cons_self
    cases entries with
    | nil =>
      have hlen : (charsEntries [(k, j)]).length = (textChars k).length + j.chars.length + 1 := by
        simp [charsEntries]
        omega
      have hvalue := hj f ('\x7d' :: rest) (by omega) (ends_cons (by decide) _)
      have hkey := textBody?_chars k (':' :: (j.chars ++ '\x7d' :: rest))
      simp [charsEntries, textChars, entries?, hkey, hvalue, skipSpace, isSpace]
    | cons e' entries =>
      have hlen : (charsEntries ((k, j) :: e' :: entries)).length =
          (textChars k).length + j.chars.length + (charsEntries (e' :: entries)).length + 2 := by
        simp [charsEntries]
        omega
      have hvalue := hj f (',' :: (charsEntries (e' :: entries) ++ '\x7d' :: rest)) (by omega)
        (ends_cons (by decide) _)
      have hkey := textBody?_chars k
        (':' :: (j.chars ++ ',' :: (charsEntries (e' :: entries) ++ '\x7d' :: rest)))
      have hrest := ih (by simp) (fun i hi => h i (List.mem_cons_of_mem _ hi)) f (by omega)
      simp [charsEntries, textChars, entries?, hkey, hvalue, hrest, skipSpace, isSpace]

theorem starts_charsItems {j : Json} (hj : j.Every Exact) (items : List Json) :
    Starts (charsItems (j :: items)) := by
  have hstarts := starts_chars hj
  cases items with
  | nil => exact hstarts
  | cons j' items => exact starts_append hstarts _

theorem value?_bracket {cs : List Char} (h : Starts cs) (fuel : Nat) :
    value? (fuel + 1) ('[' :: cs) = (items? fuel cs).map fun e => (.arr e.1, e.2) := by
  have hskip := skipSpace_of_starts h
  obtain ⟨c, rest, rfl, -, hclose⟩ := h
  have hbracket : skipSpace ('[' :: c :: rest) = '[' :: c :: rest := rfl
  simp only [value?, hbracket, hskip]
  split
  · rename_i heq
    injection heq with heq
    exact absurd heq hclose
  · cases items? fuel (c :: rest) <;> rfl

theorem readsBack_arr {items : List Json} (h : ∀ j ∈ items, j.ReadsBack)
    (hexact : ∀ j ∈ items, j.Every Exact) : (arr items).ReadsBack := by
  intro fuel rest hfuel _
  have hlen : (arr items).chars.length = (charsItems items).length + 2 := by
    simp [chars]
  obtain ⟨f, rfl⟩ := Nat.exists_eq_add_one_of_ne_zero (show fuel ≠ 0 by omega)
  have hchars : (arr items).chars ++ rest = '[' :: (charsItems items ++ ']' :: rest) := by
    simp [chars]
  rw [hchars]
  cases items with
  | nil => simp [charsItems, value?, skipSpace, isSpace]
  | cons j items =>
    have hstarts := starts_append (starts_charsItems (hexact j List.mem_cons_self) items)
      (']' :: rest)
    rw [value?_bracket hstarts, items?_charsItems (by simp) h rest f (by omega)]
    rfl

theorem readsBack_obj {entries : List (String × Json)} (h : ∀ e ∈ entries, e.2.ReadsBack) :
    (obj entries).ReadsBack := by
  intro fuel rest hfuel _
  have hlen : (obj entries).chars.length = (charsEntries entries).length + 2 := by
    simp [chars]
  obtain ⟨f, rfl⟩ := Nat.exists_eq_add_one_of_ne_zero (show fuel ≠ 0 by omega)
  have hchars : (obj entries).chars ++ rest = '\x7b' :: (charsEntries entries ++ '\x7d' :: rest) := by
    simp [chars]
  rw [hchars]
  cases entries with
  | nil => simp [charsEntries, value?, skipSpace, isSpace]
  | cons e entries =>
    have hread := entries?_charsEntries (by simp) h rest f (by omega)
    obtain ⟨cs, hquote⟩ : ∃ cs, charsEntries (e :: entries) = '"' :: cs := by
      cases entries with
      | nil => exact ⟨_, rfl⟩
      | cons e' entries => exact ⟨_, rfl⟩
    rw [hquote, List.cons_append] at hread ⊢
    simp [value?, hread, skipSpace, isSpace]

/-- Every value of exact parts is read back from its text. -/
theorem readsBack {j : Json} (h : j.Every Exact) : j.ReadsBack := by
  induction j using nested with
  | null =>
    intro fuel rest hfuel _
    change 2 * 4 ≤ fuel at hfuel
    obtain ⟨f, rfl⟩ := Nat.exists_eq_add_one_of_ne_zero (show fuel ≠ 0 by omega)
    simp [chars, value?, skipSpace, isSpace]
  | bool b =>
    intro fuel rest hfuel _
    cases b with
    | true =>
      change 2 * 4 ≤ fuel at hfuel
      obtain ⟨f, rfl⟩ := Nat.exists_eq_add_one_of_ne_zero (show fuel ≠ 0 by omega)
      simp [chars, value?, skipSpace, isSpace]
    | false =>
      change 2 * 5 ≤ fuel at hfuel
      obtain ⟨f, rfl⟩ := Nat.exists_eq_add_one_of_ne_zero (show fuel ≠ 0 by omega)
      simp [chars, value?, skipSpace, isSpace]
  | int n => exact readsBack_int h
  | float x => exact absurd h (not_exact_float x)
  | str s => exact readsBack_str s
  | unusable => exact absurd h not_exact_unusable
  | arr items ih =>
    rw [every_arr] at h
    exact readsBack_arr (fun j hj => ih j hj (h j hj)) h
  | obj entries ih =>
    rw [every_obj] at h
    exact readsBack_obj fun e he => ih e he (h e he)

theorem readDeep?_render {j : Json} (h : j.Every Exact) : readDeep? j.render = some j := by
  have hread := readsBack h (2 * j.chars.length + 2) [] (by omega) ends_nil
  rw [List.append_nil] at hread
  simp [readDeep?, render, readChars?, hread, skipSpace]

/-! ## What is read -/

theorem Numeral.inRange_value (n : Numeral) : n.value.Every InRange := by
  unfold value
  simp only []
  split
  · rename_i h
    unfold maxSignificand at h
    change InRange (.int _)
    unfold InRange
    omega
  · split
    · rename_i h
      unfold maxNegative at h
      change InRange (.int _)
      unfold InRange
      omega
    · split <;> exact trivial

/-- In so many steps only whole numbers are read that a text can write. -/
structure ReadsInRange (fuel : Nat) : Prop where
  value : ∀ cs j rest, value? fuel cs = some (j, rest) → j.Every InRange
  items : ∀ cs items rest, items? fuel cs = some (items, rest) → ∀ j ∈ items, j.Every InRange
  entries : ∀ cs entries rest, entries? fuel cs = some (some entries, rest) →
    ∀ e ∈ entries, e.2.Every InRange

namespace ReadsInRange

variable {fuel : Nat} {cs rest : List Char}

theorem value_succ (h : ReadsInRange fuel) {j : Json} (hread : value? (fuel + 1) cs = some (j, rest)) :
    j.Every InRange := by
  unfold value? at hread
  split at hread
  · cases hread
  · cases hread
    exact trivial
  · cases hread
    exact trivial
  · cases hread
    exact trivial
  · obtain ⟨⟨body, rest'⟩, -, hj⟩ := Option.bind_eq_some_iff.1 hread
    cases hj
    cases body <;> exact trivial
  · split at hread
    · cases hread
      exact trivial
    · obtain ⟨⟨items, rest'⟩, hitems, hj⟩ := Option.bind_eq_some_iff.1 hread
      cases hj
      exact every_arr.2 (h.items _ _ _ hitems)
  · split at hread
    · cases hread
      exact trivial
    · obtain ⟨⟨entries, rest'⟩, hentries, hj⟩ := Option.bind_eq_some_iff.1 hread
      cases hj
      cases entries with
      | none => exact trivial
      | some entries => exact every_obj.2 (h.entries _ _ _ hentries)
  · obtain ⟨⟨n, rest'⟩, -, hj⟩ := Option.bind_eq_some_iff.1 hread
    cases hj
    exact n.inRange_value

theorem items_succ (h : ReadsInRange fuel) {items : List Json}
    (hread : items? (fuel + 1) cs = some (items, rest)) : ∀ j ∈ items, j.Every InRange := by
  unfold items? at hread
  obtain ⟨⟨item, cs'⟩, hvalue, hread⟩ := Option.bind_eq_some_iff.1 hread
  have hitem := h.value _ _ _ hvalue
  simp only [] at hread
  split at hread
  · obtain ⟨⟨others, rest'⟩, hothers, hj⟩ := Option.bind_eq_some_iff.1 hread
    cases hj
    exact List.forall_mem_cons.2 ⟨hitem, h.items _ _ _ hothers⟩
  · cases hread
    exact List.forall_mem_cons.2 ⟨hitem, List.forall_mem_nil _⟩
  · cases hread

theorem entries_succ (h : ReadsInRange fuel) {entries : List (String × Json)}
    (hread : entries? (fuel + 1) cs = some (some entries, rest)) :
    ∀ e ∈ entries, e.2.Every InRange := by
  unfold entries? at hread
  split at hread
  · obtain ⟨⟨key, cs'⟩, -, hread⟩ := Option.bind_eq_some_iff.1 hread
    simp only [] at hread
    split at hread
    · obtain ⟨⟨value, cs''⟩, hvalue, hread⟩ := Option.bind_eq_some_iff.1 hread
      have hentry := h.value _ _ _ hvalue
      simp only [] at hread
      split at hread
      · obtain ⟨⟨others, rest'⟩, hothers, hj⟩ := Option.bind_eq_some_iff.1 hread
        cases key with
        | none => cases hj
        | some key =>
          cases others with
          | none => cases hj
          | some others =>
            cases hj
            exact List.forall_mem_cons.2 ⟨hentry, h.entries _ _ _ hothers⟩
      · cases key with
        | none => cases hread
        | some key =>
          cases hread
          exact List.forall_mem_cons.2 ⟨hentry, List.forall_mem_nil _⟩
      · cases hread
    · cases hread
  · cases hread

end ReadsInRange

theorem readsInRange (fuel : Nat) : ReadsInRange fuel := by
  induction fuel with
  | zero => exact ⟨nofun, nofun, nofun⟩
  | succ fuel ih =>
    exact ⟨fun _ _ _ => ih.value_succ, fun _ _ _ => ih.items_succ, fun _ _ _ => ih.entries_succ⟩

/-! ## Documents -/

theorem inRange_of_read? {text : String} {j : Json} (h : read? text = some j) :
    j.Every InRange := by
  obtain ⟨deep, hdeep, rfl⟩ := Option.map_eq_some_iff.1 h
  obtain ⟨⟨j, rest⟩, hread, hj⟩ := Option.bind_eq_some_iff.1 hdeep
  have hrange := (readsInRange _).value _ _ _ hread
  simp only [] at hj
  split at hj
  · cases hj
    exact hrange.limited trivial _
  · cases hj

/-- A document of exact parts is read back from its text. -/
theorem read?_render {j : Json} (h : j.Every Exact) (hdepth : j.depth ≤ maxDepth) :
    read? j.render = some j := by
  rw [read?, readDeep?_render h, Option.map_some, asDocument, limited_of_depth_le hdepth]

end TraceDebugger.Json
