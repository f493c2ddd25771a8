import TraceDebugger.Text.Numeral
import TraceDebugger.Text.Words

/-!
# Words and numbers on plain lines

Where no character of a line has a meaning of its own, its words are the runs between blanks, tabs
and line feeds (`Text.commandWords_of_plain`). A whole number is read back from its decimal digits
(`Text.readInt?_toString`).
-/

namespace TraceDebugger.Text

/-! ## Words -/

/-- A character that stands for itself on a command line, or separates words there. -/
def IsPlain (c : Char) : Prop := c ≠ '"' ∧ c ≠ '\'' ∧ c ≠ '\\' ∧ c ≠ '#'

theorem enter_of_isPlain {c : Char} (h : IsPlain c) : enter c = (.word, [c]) := by
  obtain ⟨hdouble, hsingle, hslash, -⟩ := h
  unfold enter
  rw [if_neg hdouble, if_neg hsingle, if_neg hslash]

/-- Reading plain characters is gathering runs, between words and in a word. -/
theorem wordsFrom_of_isPlain {cs : List Char} (h : ∀ c ∈ cs, IsPlain c) :
    wordsFrom .between [] cs = some (runsFrom isWordEnd [] cs) ∧
      ∀ acc, acc ≠ [] → wordsFrom .word acc cs = some (runsFrom isWordEnd acc cs) := by
  -- both at once, since a separator leads from one to the other and any other character back
  induction cs with
  | nil =>
    refine ⟨rfl, fun acc hacc => ?_⟩
    obtain ⟨a, as, rfl⟩ := List.exists_cons_of_ne_nil hacc
    rfl
  | cons c cs ih =>
    have hc := h c List.mem_cons_self
    obtain ⟨hbetween, hword⟩ := ih fun c' hc' => h c' (List.mem_cons_of_mem c hc')
    constructor
    · simp only [wordsFrom, runsFrom, enter_of_isPlain hc, if_neg hc.2.2.2]
      by_cases hend : isWordEnd c = true
      · rw [if_pos hend, if_pos hend]
        exact hbetween
      · rw [if_neg hend, if_neg hend]
        exact hword [c] (List.cons_ne_nil c [])
    · intro acc hacc
      have hnonempty : acc.isEmpty = false := by simpa using hacc
      simp only [wordsFrom, runsFrom, enter_of_isPlain hc, hnonempty]
      by_cases hend : isWordEnd c = true
      · rw [if_pos hend, if_pos hend, hbetween]
        rfl
      · rw [if_neg hend, if_neg hend]
        exact hword (acc ++ [c]) (by simp)

theorem shellWords?_of_isPlain {cs : List Char} (h : ∀ c ∈ cs, IsPlain c) :
    shellWords? cs = some (runs isWordEnd cs) :=
  (wordsFrom_of_isPlain h).1

/-- The words of a plain line are the runs between separators. -/
theorem commandWords_of_plain {line : String} (h : ∀ c ∈ line.toList, IsPlain c) :
    commandWords line = (runs isWordEnd line.toList).map String.ofList := by
  unfold commandWords
  rw [shellWords?_of_isPlain h]
  rfl

/-- A run that has begun goes on over characters that do not separate. -/
theorem runsFrom_append {sep : Char → Bool} {acc word rest : List Char}
    (h : ∀ c ∈ word, sep c = false) :
    runsFrom sep acc (word ++ rest) = runsFrom sep (acc ++ word) rest := by
  induction word generalizing acc with
  | nil => rw [List.nil_append, List.append_nil]
  | cons c word ih =>
    have hc : ¬ sep c = true := by simp [h c List.mem_cons_self]
    rw [List.cons_append, runsFrom, if_neg hc, ih fun c' hc' => h c' (List.mem_cons_of_mem c hc'),
      List.append_assoc, List.singleton_append]

theorem runsFrom_nil {sep : Char → Bool} {acc : List Char} (h : acc ≠ []) :
    runsFrom sep acc [] = [acc] := by
  obtain ⟨a, as, rfl⟩ := List.exists_cons_of_ne_nil h
  rfl

/-- Two words and a separator between them. -/
theorem runs_two {sep : Char → Bool} {first second : List Char} {c : Char}
    (hfirst : ∀ c ∈ first, sep c = false) (hsecond : ∀ c ∈ second, sep c = false)
    (hsep : sep c = true) (hne : first ≠ []) (hne' : second ≠ []) :
    runs sep (first ++ c :: second) = [first, second] := by
  have hnonempty : first.isEmpty = false := by simpa using hne
  have htail : runsFrom sep [] second = [second] := by
    rw [← List.append_nil second, runsFrom_append hsecond, List.nil_append, List.append_nil]
    exact runsFrom_nil hne'
  unfold runs
  rw [runsFrom_append hfirst, List.nil_append, runsFrom, hsep, hnonempty, htail]
  rfl

/-- A character of a word that needs no quotes. -/
def IsBare (c : Char) : Prop := IsPlain c ∧ isWordEnd c = false

theorem commandWords_two {first second : String} (hfirst : ∀ c ∈ first.toList, IsBare c)
    (hsecond : ∀ c ∈ second.toList, IsBare c) (hne : first.toList ≠ [])
    (hne' : second.toList ≠ []) :
    commandWords (first ++ " " ++ second) = [first, second] := by
  have hlist : (first ++ " " ++ second).toList = first.toList ++ ' ' :: second.toList := by
    rw [String.toList_append, String.toList_append, List.append_assoc]
    rfl
  have hplain : ∀ c ∈ (first ++ " " ++ second).toList, IsPlain c := by
    intro c hc
    rw [hlist] at hc
    rcases List.mem_append.1 hc with hc | hc
    · exact (hfirst c hc).1
    · rcases List.mem_cons.1 hc with rfl | hc
      · unfold IsPlain
        decide
      · exact (hsecond c hc).1
  rw [commandWords_of_plain hplain, hlist, runs_two (fun c hc => (hfirst c hc).2)
    (fun c hc => (hsecond c hc).2) rfl hne hne']
  simp

/-! ## Numbers -/

theorem digit?_of_isDigit {c : Char} (h : c.isDigit = true) :
    digit? c = some (c.toNat - '0'.toNat) := if_pos h

theorem readDigits?_eq {cs : List Char} (h : ∀ c ∈ cs, c.isDigit = true) (acc : Nat) :
    readDigits? acc cs = some (Nat.ofDigitChars 10 cs acc) := by
  induction cs generalizing acc with
  | nil => rfl
  | cons c cs ih =>
    have hc := digit?_of_isDigit (h c List.mem_cons_self)
    unfold readDigits?
    rw [hc]
    exact ih (fun c' hc' => h c' (List.mem_cons_of_mem c hc')) _

theorem isDigit_of_mem_toDigits {n : Nat} {c : Char} (h : c ∈ Nat.toDigits 10 n) :
    c.isDigit = true :=
  Nat.isDigit_of_mem_toDigits (by omega) (by omega) h

theorem readNat?_toDigits (n : Nat) : readNat? (Nat.toDigits 10 n) = some n := by
  have hread := readDigits?_eq (fun c hc => isDigit_of_mem_toDigits (n := n) hc) 0
  rw [Nat.ofDigitChars_ten_toDigits] at hread
  unfold readNat?
  split
  · rename_i hnil
    exact absurd hnil Nat.toDigits_ne_nil
  · exact hread

/-- The characters of a whole number. -/
theorem toList_toString (k : Int) : (toString k).toList =
    if k < 0 then '-' :: Nat.toDigits 10 k.natAbs else Nat.toDigits 10 k.natAbs := by
  cases k with
  | ofNat n =>
    rw [if_neg (show ¬ Int.ofNat n < 0 by simp)]
    exact Nat.toList_repr
  | negSucc n =>
    rw [if_pos (Int.negSucc_lt_zero n)]
    change ("-" ++ Nat.repr (n + 1)).toList = _
    rw [String.toList_append, Nat.toList_repr]
    rfl

/-- A whole number is read back from its text. -/
theorem readInt?_toString {lo hi k : Int} (hlo : lo ≤ k) (hhi : k ≤ hi) :
    readInt? lo hi (toString k) = some k := by
  have hread := readNat?_toDigits k.natAbs
  have hinside : ∀ n : Int, n = k → (if lo ≤ n ∧ n ≤ hi then some n else none) = some k := by
    rintro n rfl
    exact if_pos ⟨hlo, hhi⟩
  unfold readInt?
  rw [toList_toString]
  by_cases hneg : k < 0
  · have hk : -((k.natAbs : Nat) : Int) = k := by omega
    rw [if_pos hneg]
    simp only [hread]
    exact hinside (-((k.natAbs : Nat) : Int)) hk
  · rw [if_neg hneg]
    have hk : ((k.natAbs : Nat) : Int) = k := by omega
    have hdigits : ∀ c ∈ Nat.toDigits 10 k.natAbs, c.isDigit = true :=
      fun c hc => isDigit_of_mem_toDigits hc
    generalize Nat.toDigits 10 k.natAbs = cs at hread hdigits ⊢
    dsimp only
    split
    · exact absurd (hdigits '-' List.mem_cons_self) (by decide)
    · exact absurd (hdigits '+' List.mem_cons_self) (by decide)
    · rw [hread]
      exact hinside (k.natAbs : Nat) hk

theorem bounds_of_readInt? {lo hi k : Int} {text : String} (h : readInt? lo hi text = some k) :
    lo ≤ k ∧ k ≤ hi := by
  have hcheck : ∀ n? : Option Int,
      (n?.bind fun n => if lo ≤ n ∧ n ≤ hi then some n else none) = some k → lo ≤ k ∧ k ≤ hi := by
    intro n? hn
    obtain ⟨n, -, hn⟩ := Option.bind_eq_some_iff.1 hn
    split at hn
    · rename_i hrange
      cases hn
      exact hrange
    · cases hn
  unfold readInt? at h
  dsimp only at h
  split at h
  · exact hcheck _ h
  · exact hcheck _ h
  · exact hcheck _ h

/-- The text of a whole number is a word that needs no quotes. -/
theorem isBare_toString (k : Int) :
    (∀ c ∈ (toString k).toList, IsBare c) ∧ (toString k).toList ≠ [] := by
  have hdigit : ∀ c : Char, c.isDigit = true → IsBare c := by
    intro c hc
    unfold IsBare IsPlain
    refine ⟨⟨?_, ?_, ?_, ?_⟩, ?_⟩
    · rintro rfl
      exact absurd hc (by decide)
    · rintro rfl
      exact absurd hc (by decide)
    · rintro rfl
      exact absurd hc (by decide)
    · rintro rfl
      exact absurd hc (by decide)
    · by_cases hend : isWordEnd c = true
      · unfold isWordEnd at hend
        simp only [Bool.or_eq_true, decide_eq_true_eq] at hend
        rcases hend with (rfl | rfl) | rfl <;> exact absurd hc (by decide)
      · simpa using hend
  have hdigits : ∀ c ∈ Nat.toDigits 10 k.natAbs, IsBare c :=
    fun c hc => hdigit c (isDigit_of_mem_toDigits hc)
  rw [toList_toString]
  by_cases hneg : k < 0
  · rw [if_pos hneg]
    refine ⟨fun c hc => ?_, List.cons_ne_nil _ _⟩
    rcases List.mem_cons.1 hc with rfl | hc
    · unfold IsBare IsPlain
      decide
    · exact hdigits c hc
  · rw [if_neg hneg]
    exact ⟨hdigits, Nat.toDigits_ne_nil⟩

end TraceDebugger.Text
