import TraceDebugger.Proofs.CommandEffects
import TraceDebugger.Proofs.LexicalLookup
import TraceDebugger.Proofs.QualifiedNames

/-!
# Package-level variables by name

A name without a dot denotes a variable of the selected package, and a name with one a variable of
the package whose short name stands before the first dot, if the engine knows the variable
(`Session.Denotes`). The command for package-level variables goes through all the names that it is
given: it shows a line for each that denotes a variable, and only then reports the first that does
not (`Session.globals_in_order`).
-/

namespace TraceDebugger

/-! ## Commands -/

namespace Command

theorem mem_all_of_lookup {word : String} {c : Command} (h : lookup word = .ok c) : c ∈ all := by
  unfold lookup at h
  split at h
  · rename_i hfind
    cases h
    exact List.mem_of_find?_eq_some hfind
  · split at h
    · cases h
    · rename_i hfilter
      cases h
      have hmem := List.mem_singleton_self c
      rw [← hfilter] at hmem
      exact (List.mem_filter.1 hmem).1
    · cases h

/-- The command for package-level variables takes any number of names. -/
theorem checkCount_globals {c : Command} (hc : c ∈ all) (hverb : c.verb = .globals) {count : Nat} :
    c.checkCount count = .ok () := by
  have hbounds : ∀ c ∈ all, c.verb = .globals → c.minArgs = 0 ∧ c.maxArgs = none := by decide
  obtain ⟨hmin, hmax⟩ := hbounds c hc hverb
  unfold checkCount
  rw [hmin, hmax, if_neg (Nat.not_lt_zero count)]

end Command

/-! ## Output with room enough -/

namespace Session

variable {s : Session}

theorem exists_write?_of_admits {text rest : String} (h : s.console.admits (text ++ rest) = true) :
    ∃ s', s.write? text = some s' ∧ s'.console.admits rest = true := by
  obtain ⟨hfirst, hrest⟩ := Console.admits_append.1 h
  exact ⟨_, write?_of_admits hfirst, hrest⟩

theorem enact?_of_admits {e : Effect} {rest : String}
    (h : s.console.admits (String.join e.text?.toList ++ rest) = true) :
    ∃ s', s.enact? e = some s' ∧ s'.console.admits rest = true := by
  cases e with
  | write text =>
    rw [Effect.text?, Option.toList_some, String.join_cons, String.join_nil,
      String.append_empty] at h
    exact exists_write?_of_admits h
  | _ =>
    have hrest : s.console.admits ("" ++ rest) = true := h
    rw [String.empty_append] at hrest
    exact ⟨_, rfl, hrest⟩

theorem perform_of_admits {effects : List Effect} {rest : String}
    (h : s.console.admits (String.join (effects.filterMap Effect.text?) ++ rest) = true) :
    ∃ s', s.perform effects = (s', true) ∧ s'.console.admits rest = true := by
  induction effects generalizing s with
  | nil =>
    rw [List.filterMap_nil, String.join_nil, String.empty_append] at h
    exact ⟨s, rfl, h⟩
  | cons e effects ih =>
    have htexts : (e :: effects).filterMap Effect.text? =
        e.text?.toList ++ effects.filterMap Effect.text? := by
      cases e <;> rfl
    rw [htexts, String.join_append, String.append_assoc] at h
    obtain ⟨s₁, henact, hrest⟩ := enact?_of_admits h
    obtain ⟨s₂, hperform, hrest⟩ := ih hrest
    refine ⟨s₂, ?_, hrest⟩
    simp only [perform, henact, hperform]

/-- A reply whose texts all fit is carried out whole. -/
theorem carryOut_of_admits {r : Reply} (h : s.console.admits (String.join r.texts) = true) :
    (s.carryOut r).result = .ok r.flow := by
  unfold Reply.texts at h
  rw [String.join_append] at h
  obtain ⟨s₁, hperform, hrest⟩ := perform_of_admits h
  unfold carryOut Reply.flow
  rw [hperform]
  cases hresult : r.result with
  | ok flow => rfl
  | error e =>
    unfold Reply.reports at hrest
    rw [hresult, ← String.append_empty (s := String.join _)] at hrest
    have hreport : s₁.console.admits (reportText e ++ "") = true := hrest
    obtain ⟨s₂, hwrite, -⟩ := exists_write?_of_admits hreport
    dsimp only
    rw [hwrite]

/-! ## What a name denotes -/

/-- A name denotes a variable that the engine knows, of this value. -/
inductive Denotes (s : Session) (name : String) (v : Value) : Prop where
  /-- A variable of the selected package. -/
  | own {pkg : Package} (bare : '.' ∉ name.toList) (home : s.package? = some pkg)
    (known : s.engine.global? pkg.path name = some v)
  /-- A variable of the package whose short name stands before the first dot. -/
  | qualified {qualifier var : String} {pkg : Package} (dotted : name = qualifier ++ "." ++ var)
    (first : '.' ∉ qualifier.toList) (named : s.program.named? qualifier = some pkg)
    (known : s.engine.global? pkg.path var = some v)

variable {name : String} {names : List String} {v : Value}

theorem globalValue?_eq_some_iff : s.globalValue? name = some v ↔ s.Denotes name v := by
  unfold globalValue? globalKey?
  constructor
  · intro h
    cases hsplit : Text.splitAt? '.' name with
    | some parts =>
      obtain ⟨qualifier, var⟩ := parts
      rw [hsplit] at h
      obtain ⟨key, hkey, hknown⟩ := Option.bind_eq_some_iff.1 h
      obtain ⟨pkg, hnamed, rfl⟩ := Option.map_eq_some_iff.1 hkey
      obtain ⟨hdotted, hfirst⟩ := Text.splitAt?_eq_some hsplit
      exact .qualified hdotted hfirst hnamed hknown
    | none =>
      rw [hsplit] at h
      obtain ⟨key, hkey, hknown⟩ := Option.bind_eq_some_iff.1 h
      obtain ⟨pkg, hhome, rfl⟩ := Option.map_eq_some_iff.1 hkey
      exact .own (Text.splitAt?_eq_none_iff.1 hsplit) hhome hknown
  · rintro (⟨hbare, hhome, hknown⟩ | ⟨rfl, hfirst, hnamed, hknown⟩)
    · rw [Text.splitAt?_eq_none_iff.2 hbare]
      dsimp only
      rw [hhome]
      exact hknown
    · rw [Text.splitAt?_dotted hfirst]
      dsimp only
      rw [hnamed]
      exact hknown

theorem globalValue?_eq_none_iff : s.globalValue? name = none ↔ ∀ v, ¬ s.Denotes name v := by
  rw [Option.eq_none_iff_forall_ne_some]
  exact forall_congr' fun v => not_congr globalValue?_eq_some_iff

/-! ## What is shown and reported -/

/-- The lines that show the variables that names denote: in the order of the names, one for each
name that denotes a variable and none for the others. -/
inductive Shows (s : Session) : List String → List String → Prop where
  | nil : Shows s [] []
  | known {name : String} {v : Value} {names lines : List String} (denotes : s.Denotes name v)
    (rest : Shows s names lines) : Shows s (name :: names) (s!"{name}: {v.deref.text}" :: lines)
  | unknown {name : String} {names lines : List String} (nothing : ∀ v, ¬ s.Denotes name v)
    (rest : Shows s names lines) : Shows s (name :: names) lines

/-- What a command reports of names that are to denote variables. -/
inductive Reports (s : Session) (names : List String) : Except CommandError Flow → Prop where
  /-- All do. -/
  | nothing (known : ∀ name ∈ names, ∃ v, s.Denotes name v) : Reports s names (.ok .prompt)
  /-- The first that does not is reported. -/
  | first {before after : List String} {missing : String}
    (split : names = before ++ missing :: after) (known : ∀ name ∈ before, ∃ v, s.Denotes name v)
    (unknown : ∀ v, ¬ s.Denotes missing v) : Reports s names (.error (.noSuchGlobal missing))

/-- The lines that the command shows. -/
def knownLines (s : Session) (names : List String) : List String :=
  names.filterMap fun name => (s.globalValue? name).map (globalLine name)

theorem shows_knownLines (s : Session) (names : List String) :
    s.Shows names (s.knownLines names) := by
  induction names with
  | nil => exact .nil
  | cons name names ih =>
    unfold knownLines at ih ⊢
    rw [List.filterMap_cons]
    cases hvalue : s.globalValue? name with
    | some v => exact .known (globalValue?_eq_some_iff.1 hvalue) ih
    | none => exact .unknown (globalValue?_eq_none_iff.1 hvalue) ih

theorem effects_globals (s : Session) (names : List String) :
    (s.globals names).effects = (s.knownLines names).map fun line => .write (line ++ "\n") := by
  unfold globals knownLines
  rw [List.map_filterMap]
  simp only [Option.map_map]
  rfl

theorem reports_globals (s : Session) (names : List String) :
    s.Reports names (s.globals names).result := by
  have hknown : ∀ name, (s.globalValue? name).isNone = false → ∃ v, s.Denotes name v := by
    intro name hvalue
    obtain ⟨v, hv⟩ := Option.isSome_iff_exists.1 (Option.isNone_eq_false_iff.1 hvalue)
    exact ⟨v, globalValue?_eq_some_iff.1 hv⟩
  unfold globals
  dsimp only
  cases hfind : names.find? fun name => (s.globalValue? name).isNone with
  | none =>
    refine .nothing fun name hname => hknown name ?_
    exact eq_false_of_ne_true (List.find?_eq_none.1 hfind name hname)
  | some missing =>
    obtain ⟨hmissing, before, after, hsplit, hbefore⟩ := List.find?_eq_some_iff_append.1 hfind
    refine .first hsplit (fun name hname => hknown name ?_) ?_
    · simpa using hbefore name hname
    · exact globalValue?_eq_none_iff.1 (Option.isNone_iff_eq_none.1 hmissing)

theorem replyTo_globals {word : String} (hverb : Command.verbOf? (word :: names) = some .globals)
    (hnames : names ≠ []) : s.replyTo (word :: names) = s.globals names := by
  have hrequest : Request.ofWords word names = .ok (.globals names) := by
    unfold Request.ofWords
    cases hlookup : Command.lookup word with
    | error cause =>
      simp [Command.verbOf?, hlookup, Except.toOption] at hverb
    | ok command =>
      have hcommand : command.verb = .globals := by
        simpa [Command.verbOf?, hlookup, Except.toOption] using hverb
      dsimp only
      rw [Command.checkCount_globals (Command.mem_all_of_lookup hlookup) hcommand, hcommand]
      rfl
  unfold replyTo
  dsimp only
  rw [hrequest]
  cases names with
  | nil => exact absurd rfl hnames
  | cons name rest => rfl

theorem texts_globals (s : Session) (names : List String) :
    (s.globals names).texts =
      (s.knownLines names).map (· ++ "\n") ++ (s.globals names).reports := by
  have hwrites := Reply.filterMap_text?_writes ((s.knownLines names).map (· ++ "\n"))
  rw [List.map_map] at hwrites
  unfold Reply.texts
  rw [effects_globals]
  exact congrArg (· ++ (s.globals names).reports) hwrites

/-- The command for package-level variables, given some names, shows in their order a line for each
that denotes a variable and then reports the first that does not, if there is one. If all of this
fits, it is shown, and the next command is read. -/
theorem globals_in_order {word : String} (hverb : Command.verbOf? (word :: names) = some .globals)
    (hnames : names ≠ []) :
    let r := s.replyTo (word :: names)
    let turn := s.carryOut r
    (∀ line, Text.commandWords line = word :: names → s.execute line = turn) ∧
    s.Reports names r.result ∧
    (∃ lines, s.Shows names lines ∧ r.texts = lines.map (· ++ "\n") ++ r.reports) ∧
    (s.console.admits (String.join r.texts) = true →
      turn.result = .ok .prompt ∧
        turn.session.console.shown = s.console.shown ++ String.join r.texts) := by
  intro r turn
  have hr : r = s.globals names := replyTo_globals hverb hnames
  have hreports : s.Reports names r.result := by
    rw [hr]
    exact s.reports_globals names
  refine ⟨fun line hwords => ?_, hreports, ⟨_, s.shows_knownLines names, ?_⟩, fun hfits => ?_⟩
  · unfold execute
    rw [hwords]
  · rw [hr]
    exact s.texts_globals names
  · have hflow : r.flow = .prompt := by
      unfold Reply.flow
      generalize r.result = result at hreports
      cases hreports with
      | nothing => rfl
      | first => rfl
    have hresult : turn.result = .ok r.flow := carryOut_of_admits hfits
    obtain ⟨-, hshown, -⟩ := carryOut_eq_ok hresult
    exact ⟨hresult.trans (congrArg Except.ok hflow), hshown⟩

/-- Two of three names denote a variable. -/
theorem globals_in_order_inInitializer :
    let s := inInitializer
    let names := ["y", "m.x", "x"]
    let turn := s.execute "gl y m.x x"
    Command.verbOf? ("gl" :: names) = some .globals ∧
      s.Reports names (.error (.noSuchGlobal "y")) ∧ turn.result = .ok .prompt ∧
      turn.session.console.shown = "m.x: 1\nx: 1\n" ++ reportText (.noSuchGlobal "y") := by
  intro s names turn
  have hverb : Command.verbOf? ("gl" :: names) = some .globals := by decide +kernel
  obtain ⟨hline, hreports, -, hwhole⟩ :=
    globals_in_order (s := s) hverb (List.cons_ne_nil "y" ["m.x", "x"])
  have hwords : Text.commandWords "gl y m.x x" = "gl" :: names := by decide +kernel
  have htexts : (s.replyTo ("gl" :: names)).texts =
      ["m.x: 1\n", "x: 1\n", reportText (.noSuchGlobal "y")] := by decide +kernel
  have herror : (s.replyTo ("gl" :: names)).result = .error (.noSuchGlobal "y") := rfl
  obtain ⟨hresult, hshown⟩ := hwhole rfl
  rw [herror] at hreports
  rw [htexts] at hshown
  refine ⟨hverb, hreports, ?_, ?_⟩
  · rw [← hline _ hwords] at hresult
    exact hresult
  · rw [← hline _ hwords] at hshown
    exact hshown

end Session

end TraceDebugger
