import TraceDebugger.Proofs.CommandWords

/-!
# Words in quotes and between white space

The words of a text are its maximal runs of characters that do not separate (`Text.Runs`), and
there is one list of them only (`Text.runs_eq_iff`). A plain line has the same words by the rules of
quoting and without regard to quotes; any words get through in single quotes; and a line that cannot
be cut by the rules of quoting has the words between its white space (`Text.commandWords_exact`).
-/

namespace TraceDebugger.Text

/-! ## Maximal runs -/

/-- The maximal runs of a text, in order: each is a word without separators, and before it, after it
and between two of them there is nothing but separators. -/
inductive Runs (sep : Char → Bool) : List Char → List (List Char) → Prop
  /-- No run is left. -/
  | done {gap : List Char} (gaps : ∀ c ∈ gap, sep c = true) : Runs sep gap []
  /-- A run goes up to the end of the text. -/
  | last {gap word : List Char} (gaps : ∀ c ∈ gap, sep c = true)
    (whole : ∀ c ∈ word, sep c = false) (nonempty : word ≠ []) : Runs sep (gap ++ word) [word]
  /-- A run goes up to the next separator. -/
  | more {gap word rest : List Char} {stop : Char} {words : List (List Char)}
    (gaps : ∀ c ∈ gap, sep c = true) (whole : ∀ c ∈ word, sep c = false) (nonempty : word ≠ [])
    (stops : sep stop = true) (later : Runs sep rest words) :
    Runs sep (gap ++ word ++ stop :: rest) (word :: words)

section runs

variable {sep : Char → Bool} {cs : List Char} {words : List (List Char)}

/-- Separators before the first run make no difference. -/
theorem Runs.skip (h : Runs sep cs words) {c : Char} (hc : sep c = true) :
    Runs sep (c :: cs) words := by
  have hgap : ∀ {gap : List Char}, (∀ c ∈ gap, sep c = true) → ∀ c' ∈ c :: gap, sep c' = true :=
    fun hgaps c' hc' => (List.mem_cons.1 hc').elim (fun heq => heq ▸ hc) (hgaps c')
  cases h with
  | done gaps => exact .done (hgap gaps)
  | last gaps whole nonempty => exact .last (hgap gaps) whole nonempty
  | more gaps whole nonempty stops later => exact .more (hgap gaps) whole nonempty stops later

theorem Runs.ne_nil (h : Runs sep cs words) : ∀ word ∈ words, word ≠ [] := by
  induction h with
  | done gaps => exact fun word hword => nomatch hword
  | last gaps whole nonempty =>
    intro word hword
    rw [List.mem_singleton.1 hword]
    exact nonempty
  | more gaps whole nonempty stops later ih =>
    intro word hword
    rcases List.mem_cons.1 hword with rfl | hword
    · exact nonempty
    · exact ih word hword

theorem Runs.not_sep (h : Runs sep cs words) : ∀ word ∈ words, ∀ c ∈ word, sep c = false := by
  induction h with
  | done gaps => exact fun word hword => nomatch hword
  | last gaps whole nonempty =>
    intro word hword
    rw [List.mem_singleton.1 hword]
    exact whole
  | more gaps whole nonempty stops later ih =>
    intro word hword
    rcases List.mem_cons.1 hword with rfl | hword
    · exact whole
    · exact ih word hword

/-- Reading on after a run that has begun. -/
theorem runs_runsFrom {acc : List Char} (hacc : ∀ c ∈ acc, sep c = false) (cs : List Char) :
    Runs sep (acc ++ cs) (runsFrom sep acc cs) := by
  have hnone : ∀ c ∈ ([] : List Char), sep c = true := fun c hc => nomatch hc
  induction cs generalizing acc with
  | nil =>
    rw [List.append_nil]
    cases acc with
    | nil => exact .done fun c hc => nomatch hc
    | cons a acc =>
      have hlast := Runs.last hnone hacc (List.cons_ne_nil a acc)
      exact hlast
  | cons c cs ih =>
    have hrest : Runs sep ([] ++ cs) (runsFrom sep [] cs) := ih fun c hc => nomatch hc
    rw [runsFrom]
    by_cases hc : sep c = true
    · rw [if_pos hc]
      cases acc with
      | nil => exact hrest.skip hc
      | cons a acc =>
        have hmore := Runs.more hnone hacc (List.cons_ne_nil a acc) hc hrest
        exact hmore
    · rw [if_neg hc, List.append_cons]
      refine ih fun c' hc' => ?_
      rcases List.mem_append.1 hc' with hc' | hc'
      · exact hacc c' hc'
      · rw [List.mem_singleton.1 hc']
        exact eq_false_of_ne_true hc

theorem runsFrom_gap {gap : List Char} (hgap : ∀ c ∈ gap, sep c = true) (rest : List Char) :
    runsFrom sep [] (gap ++ rest) = runsFrom sep [] rest := by
  induction gap with
  | nil => rfl
  | cons c gap ih =>
    rw [List.cons_append, runsFrom, if_pos (hgap c List.mem_cons_self),
      ih fun c' hc' => hgap c' (List.mem_cons_of_mem c hc')]
    rfl

/-- A text has one list of maximal runs. -/
theorem runs_eq_iff : runs sep cs = words ↔ Runs sep cs words := by
  constructor
  · rintro rfl
    have hnone : ∀ c ∈ ([] : List Char), sep c = false := fun c hc => nomatch hc
    exact runs_runsFrom hnone cs
  · intro h
    unfold runs
    induction h with
    | @done gap gaps =>
      have hgap := runsFrom_gap gaps []
      rw [List.append_nil] at hgap
      exact hgap
    | @last gap word gaps whole nonempty =>
      have hword : runsFrom sep [] (word ++ []) = runsFrom sep ([] ++ word) [] :=
        runsFrom_append whole
      rw [List.append_nil, List.nil_append] at hword
      rw [runsFrom_gap gaps, hword, runsFrom_nil nonempty]
    | @more gap word rest stop words gaps whole nonempty stops later ih =>
      have hword : word.isEmpty = false := by simpa using nonempty
      rw [List.append_assoc, runsFrom_gap gaps, runsFrom_append whole, List.nil_append, runsFrom,
        if_pos stops, hword, ih]
      rfl

/-- The runs of a text depend on the separators that occur in it. -/
theorem runs_congr {sep' : Char → Bool} (h : ∀ c ∈ cs, sep c = sep' c) :
    runs sep cs = runs sep' cs := by
  have hfrom : ∀ acc, runsFrom sep acc cs = runsFrom sep' acc cs := by
    induction cs with
    | nil =>
      intro acc
      cases acc <;> rfl
    | cons c cs ih =>
      intro acc
      have hrest := ih fun c' hc' => h c' (List.mem_cons_of_mem c hc')
      rw [runsFrom, runsFrom, h c List.mem_cons_self, hrest, hrest]
  exact hfrom []

end runs

/-! ## Lines without regard to quotes -/

/-- Normalizing a text does not change its words, and cutting it at the blanks finds them. -/
theorem bareWords_eq_runs (cs : List Char) : bareWords cs = runs isBlank cs := by
  have hruns : Runs isBlank cs (runs isBlank cs) := runs_eq_iff.1 rfl
  have hkept : (runs isBlank cs).filter (fun word => !word.isEmpty) = runs isBlank cs := by
    refine List.filter_eq_self.2 fun word hword => ?_
    simpa using hruns.ne_nil word hword
  unfold bareWords normalizeBlanks
  by_cases hnone : runs isBlank cs = []
  · rw [hnone]
    rfl
  · have hblank : ∀ word ∈ runs isBlank cs, ' ' ∉ word := by
      intro word hword hmem
      have hfalse := hruns.not_sep word hword ' ' hmem
      cases hfalse
    rw [List.splitOn_intercalate ' ' hblank hnone, hkept]

/-! ## Words in quotes -/

/-- A word between single quotes. -/
def inQuotes (word : String) : List Char := '\'' :: (word.toList ++ ['\''])

/-- Words in single quotes, with blanks between them: after the word number `i` one blank and `gap i`
further ones. -/
def quotedLine (gap : Nat → Nat) : List String → List Char
  | [] => []
  | [word] => inQuotes word
  | word :: next :: rest => inQuotes word ++ List.replicate (gap 0 + 1) ' ' ++
    quotedLine (fun i => gap (i + 1)) (next :: rest)

theorem wordsFrom_single {word : List Char} (h : '\'' ∉ word) (acc rest : List Char) :
    wordsFrom .single acc (word ++ '\'' :: rest) = wordsFrom .word (acc ++ word) rest := by
  induction word generalizing acc with
  | nil =>
    rw [List.nil_append, List.append_nil]
    exact if_pos rfl
  | cons c word ih =>
    rw [List.mem_cons, not_or] at h
    rw [List.cons_append, wordsFrom, if_neg (Ne.symm h.1), ih h.2, List.append_assoc]
    rfl

/-- Reading a word in quotes. -/
theorem wordsFrom_inQuotes {word : String} (h : '\'' ∉ word.toList) (rest : List Char) :
    wordsFrom .between [] (inQuotes word ++ rest) = wordsFrom .word word.toList rest := by
  have hquote : wordsFrom .between [] ('\'' :: (word.toList ++ '\'' :: rest)) =
      wordsFrom .single [] (word.toList ++ '\'' :: rest) := rfl
  have hline : inQuotes word ++ rest = '\'' :: (word.toList ++ '\'' :: rest) := by
    simp [inQuotes]
  rw [hline, hquote, wordsFrom_single h, List.nil_append]

theorem wordsFrom_blanks (n : Nat) (rest : List Char) :
    wordsFrom .between [] (List.replicate n ' ' ++ rest) = wordsFrom .between [] rest := by
  induction n with
  | zero => rfl
  | succ n ih => exact ih

/-- Words in single quotes get through unchanged. -/
theorem shellWords?_quotedLine (gap : Nat → Nat) {words : List String}
    (h : ∀ word ∈ words, '\'' ∉ word.toList) :
    shellWords? (quotedLine gap words) = some (words.map String.toList) := by
  unfold shellWords?
  induction words generalizing gap with
  | nil => rfl
  | cons word rest ih =>
    have hword := wordsFrom_inQuotes (h word List.mem_cons_self)
    cases rest with
    | nil =>
      have hend := hword []
      rw [List.append_nil] at hend
      exact hend
    | cons next rest =>
      have hrest := ih (fun i => gap (i + 1)) fun w hw => h w (List.mem_cons_of_mem word hw)
      have hblanks := wordsFrom_blanks (gap 0) (quotedLine (fun i => gap (i + 1)) (next :: rest))
      rw [quotedLine, List.append_assoc, hword, List.replicate_succ, List.cons_append]
      change (wordsFrom .between [] _).map _ = _
      rw [hblanks, hrest]
      rfl

/-! ## Command lines -/

/-- On a line whose white space is blanks, tabs and line feeds and in which no character has a
meaning of its own, the words are the maximal runs between white space, with or without regard to
quotes. Any words without single quotes get through when each is put between single quotes and
blanks stand between them. A line that cannot be cut by the rules of quoting has the words between
its white space, none of which is empty. -/
theorem commandWords_exact :
    (∀ line : String,
      (∀ c ∈ line.toList, IsPlain c ∧ (isBlank c = true → c = ' ' ∨ c = '\t' ∨ c = '\n')) →
      Runs isBlank line.toList ((commandWords line).map String.toList) ∧
        (bareWords line.toList).map String.ofList = commandWords line) ∧
    (∀ (gap : Nat → Nat) (words : List String), (∀ word ∈ words, '\'' ∉ word.toList) →
      commandWords (String.ofList (quotedLine gap words)) = words) ∧
    ∀ line : String, shellWords? line.toList = none →
      Runs isBlank line.toList ((commandWords line).map String.toList) ∧
        "" ∉ commandWords line := by
  have htexts : ∀ words : List (List Char), (words.map String.ofList).map String.toList = words := by
    intro words
    simp [Function.comp_def]
  refine ⟨fun line hplain => ?_, fun gap words hwords => ?_, fun line hnone => ?_⟩
  · have hsame : runs isWordEnd line.toList = runs isBlank line.toList := by
      refine runs_congr fun c hc => ?_
      obtain ⟨-, hblank⟩ := hplain c hc
      by_cases hc : isBlank c = true
      · rw [hc]
        rcases hblank hc with rfl | rfl | rfl <;> rfl
      · rw [eq_false_of_ne_true hc]
        refine eq_false_of_ne_true fun hend => hc ?_
        simp only [isWordEnd, Bool.or_eq_true, decide_eq_true_eq] at hend
        rcases hend with (rfl | rfl) | rfl <;> rfl
    have hwords := commandWords_of_plain fun c hc => (hplain c hc).1
    rw [hsame] at hwords
    rw [hwords, htexts, bareWords_eq_runs]
    exact ⟨runs_eq_iff.1 rfl, rfl⟩
  · have hshell := shellWords?_quotedLine gap hwords
    unfold commandWords
    rw [String.toList_ofList, hshell]
    simp [Function.comp_def]
  · have hwords : commandWords line = (runs isBlank line.toList).map String.ofList := by
      unfold commandWords
      rw [hnone, Option.getD_none, bareWords_eq_runs]
    have hruns : Runs isBlank line.toList (runs isBlank line.toList) := runs_eq_iff.1 rfl
    rw [hwords, htexts]
    refine ⟨hruns, fun hempty => ?_⟩
    obtain ⟨word, hword, htext⟩ := List.mem_map.1 hempty
    exact hruns.ne_nil word hword (String.ofList_eq_empty_iff.1 htext)

/-- Three lines: one without quotes, one of words in quotes, and one with a quote too few and a blank
that only the white space of Unicode has. -/
theorem commandWords_exact_threeLines :
    let bare := "break\t main.f\n"
    let words := ["", "two words", "#\"\\"]
    let broken := "v \"oops\u00a0it"
    (bareWords bare.toList).map String.ofList = commandWords bare ∧
      commandWords (String.ofList (quotedLine (fun i => i) words)) = words ∧
      Runs isBlank broken.toList ((commandWords broken).map String.toList) ∧
      commandWords broken = ["v", "\"oops", "it"] := by
  intro bare words broken
  obtain ⟨hbare, hquoted, hbroken⟩ := commandWords_exact
  have hchecked : (bare.toList.all fun c =>
      (c ≠ '"' ∧ c ≠ '\'' ∧ c ≠ '\\' ∧ c ≠ '#') ∧
        (isBlank c = true → c = ' ' ∨ c = '\t' ∨ c = '\n')) = true := by decide +kernel
  have hplain : ∀ c ∈ bare.toList,
      IsPlain c ∧ (isBlank c = true → c = ' ' ∨ c = '\t' ∨ c = '\n') := by
    intro c hc
    have hc := List.all_eq_true.1 hchecked c hc
    rw [decide_eq_true_iff] at hc
    exact hc
  have hwords : ∀ word ∈ words, '\'' ∉ word.toList := by decide +kernel
  have hnone : shellWords? broken.toList = none := by decide +kernel
  have hcut : commandWords broken = ["v", "\"oops", "it"] := by decide +kernel
  exact ⟨(hbare bare hplain).2, hquoted _ words hwords, (hbroken broken hnone).1, hcut⟩

end TraceDebugger.Text
