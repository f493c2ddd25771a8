import Mathlib.Data.List.Nodup
import Mathlib.Data.Nat.PSub
import TraceDebugger.Proofs.PartialWrites

/-!
# No word is missed

The dispatcher and the handlers of some commands read words of a line without asking whether there
are so many. `Session.dispatch?` has no answer if such a word is not there: it takes the first word
and the number of the others for granted, and so do handlers their argument (`Session.handle?`). The
bounds in the list of commands rule this out, whatever the line and the session are
(`Session.dispatch_in_range`): a line is skipped, or refused for one reason, or a command that its
first word selects gets as many arguments as it admits, and its handler finds the words that it
reads. Of a line that is skipped or refused one text is shown, and nothing else is done.
-/

namespace TraceDebugger

/-! ## Selection -/

namespace Command

/-- A word is the name of a command or another name for it. -/
def Named (c : Command) (word : String) : Prop := c.name = word ∨ word ∈ c.aliases

instance (c : Command) (word : String) : Decidable (c.Named word) :=
  inferInstanceAs (Decidable (c.name = word ∨ word ∈ c.aliases))

/-- A word is not the name of a command, nor another name for one. -/
def Nameless (word : String) : Prop := ∀ c ∈ all, ¬ c.Named word

/-- A word is the beginning of the name of a command. -/
def Begins (word : String) (c : Command) : Prop := Text.startsWith word c.name = true

instance (word : String) (c : Command) : Decidable (Begins word c) :=
  inferInstanceAs (Decidable (_ = true))

/-- A word selects a command: it is one of its names, or else the beginning of its name and of no
other. -/
inductive Selects (word : String) (c : Command) : Prop
  | name (listed : c ∈ all) (named : c.Named word)
  | start (nameless : Nameless word) (only : ∀ other, other ∈ all ∧ Begins word other ↔ other = c)

theorem Selects.mem {word : String} {c : Command} (h : Selects word c) : c ∈ all := by
  cases h with
  | name listed => exact listed
  | start _ only => exact ((only c).2 rfl).1

/-- No two commands do the same. -/
theorem nodup_verbs : (all.map Command.verb).Nodup := by decide

/-- No word is a name of two commands. -/
theorem eq_of_named {word : String} {c c' : Command} (hc : c ∈ all) (hc' : c' ∈ all)
    (h : c.Named word) (h' : c'.Named word) : c = c' := by
  have hverbs : ∀ c ∈ all, ∀ c' ∈ all, ∀ word ∈ c.name :: c.aliases, c'.Named word →
      c.verb = c'.verb := by decide +kernel
  have hmem : word ∈ c.name :: c.aliases := List.mem_cons.2 (h.imp_left Eq.symm)
  exact List.inj_on_of_nodup_map nodup_verbs hc hc' (hverbs c hc c' hc' word hmem h')

variable {word : String} {c : Command}

theorem find?_eq_some_iff :
    (all.find? fun c => c.name = word ∨ word ∈ c.aliases) = some c ↔ c ∈ all ∧ c.Named word := by
  constructor
  · intro h
    have hfound := List.find?_some h
    exact ⟨List.mem_of_find?_eq_some h, of_decide_eq_true hfound⟩
  · rintro ⟨hc, hnamed⟩
    cases hfind : all.find? fun c => c.name = word ∨ word ∈ c.aliases with
    | none => exact absurd (decide_eq_true hnamed) (List.find?_eq_none.1 hfind c hc)
    | some c' =>
      have hfound := List.find?_some hfind
      have hnamed' : c'.Named word := of_decide_eq_true hfound
      rw [eq_of_named (List.mem_of_find?_eq_some hfind) hc hnamed' hnamed]

theorem find?_eq_none_iff :
    (all.find? fun c => c.name = word ∨ word ∈ c.aliases) = none ↔ Nameless word := by
  rw [List.find?_eq_none]
  exact forall₂_congr fun c _ => not_congr decide_eq_true_iff

theorem mem_filter_iff {c : Command} :
    c ∈ all.filter (fun c => Text.startsWith word c.name) ↔ c ∈ all ∧ Begins word c :=
  List.mem_filter

theorem filter_eq_singleton_iff :
    all.filter (fun c => Text.startsWith word c.name) = [c] ↔
      ∀ other, other ∈ all ∧ Begins word other ↔ other = c := by
  constructor
  · intro h other
    rw [← mem_filter_iff, h, List.mem_singleton]
  · intro h
    refine List.perm_singleton.1 ((List.perm_ext_iff_of_nodup
      ((nodup_verbs.of_map _).filter _) (List.nodup_singleton c)).2 fun other => ?_)
    rw [mem_filter_iff, h, List.mem_singleton]

theorem lookup_eq_ok_iff : lookup word = .ok c ↔ Selects word c := by
  unfold lookup
  constructor
  · intro h
    split at h
    · rename_i c' hfind
      cases h
      obtain ⟨hc, hnamed⟩ := find?_eq_some_iff.1 hfind
      exact .name hc hnamed
    · rename_i hfind
      split at h
      · cases h
      · rename_i hfilter
        cases h
        exact .start (find?_eq_none_iff.1 hfind) (filter_eq_singleton_iff.1 hfilter)
      · cases h
  · rintro (⟨hc, hnamed⟩ | ⟨hnameless, honly⟩)
    · rw [find?_eq_some_iff.2 ⟨hc, hnamed⟩]
    · rw [find?_eq_none_iff.2 hnameless, filter_eq_singleton_iff.2 honly]

/-- Why a word selects no command: it is no name and the beginning of none, or of several. -/
inductive Misses (word : String) : LookupError → Prop
  | unknown (nameless : Nameless word) (none : ∀ c ∈ all, ¬ Begins word c) :
    Misses word (.unknown word)
  | ambiguous (nameless : Nameless word) {candidates : List Command}
    (begun : candidates = all.filter (Begins word)) (several : 2 ≤ candidates.length) :
    Misses word (.ambiguous word (candidates.map (·.name)))

theorem lookup_eq_error_iff {cause : LookupError} : lookup word = .error cause ↔
    Misses word cause := by
  have hbegins : all.filter (fun c => Text.startsWith word c.name) = all.filter (Begins word) :=
    List.filter_congr fun c _ => (Bool.decide_coe _).symm
  unfold lookup
  constructor
  · intro h
    split at h
    · cases h
    · rename_i hfind
      have hnameless := find?_eq_none_iff.1 hfind
      match hfilter : all.filter fun c => Text.startsWith word c.name with
      | [] =>
        rw [hfilter] at h
        cases h
        exact .unknown hnameless fun c hc hbegun => List.filter_eq_nil_iff.1 hfilter c hc hbegun
      | [c] =>
        rw [hfilter] at h
        cases h
      | _ :: _ :: rest =>
        rw [hfilter] at h
        cases h
        exact .ambiguous hnameless (hfilter.symm.trans hbegins) (Nat.le_add_left 2 rest.length)
  · rintro (⟨hnameless, hnone⟩ | @⟨hnameless, candidates, hbegun, hseveral⟩)
    · rw [find?_eq_none_iff.2 hnameless, List.filter_eq_nil_iff.2 hnone]
    · rw [find?_eq_none_iff.2 hnameless, hbegins, ← hbegun]
      match candidates with
      | [] | [_] => exact absurd hseveral (by simp)
      | _ :: _ :: _ => rfl

/-! ## The number of arguments -/

/-- A command with a bound on its arguments admits some number of them. -/
theorem minArgs_le {c : Command} (hc : c ∈ all) {max : Nat} (hmax : c.maxArgs = some max) :
    c.minArgs ≤ max := by
  have hbounds : ∀ c ∈ all, ∀ max ∈ c.maxArgs, c.minArgs ≤ max := by decide
  exact hbounds c hc max hmax

/-- The number of arguments is one that a command admits. -/
structure Takes (c : Command) (count : Nat) : Prop where
  /-- There are enough. -/
  enough : c.minArgs ≤ count
  /-- There are not too many. -/
  bounded : ∀ max, c.maxArgs = some max → count ≤ max

theorem checkCount_of_lt {count : Nat} (h : count < c.minArgs) :
    c.checkCount count = .error (.tooFewArgs c.minArgs count) := if_pos h

theorem checkCount_of_max_lt {max count : Nat} (hc : c ∈ all) (hmax : c.maxArgs = some max)
    (h : max < count) : c.checkCount count = .error (.tooManyArgs max count) := by
  have hmin := minArgs_le hc hmax
  unfold checkCount
  rw [if_neg (by omega), hmax]
  exact if_pos h

theorem checkCount_eq_ok_iff {count : Nat} : c.checkCount count = .ok () ↔ c.Takes count := by
  unfold checkCount
  constructor
  · intro h
    split at h
    · cases h
    · rename_i henough
      refine ⟨Nat.not_lt.1 henough, fun max hmax => Nat.not_lt.1 fun hmany => ?_⟩
      rw [hmax] at h
      dsimp only at h
      rw [if_pos hmany] at h
      cases h
  · intro h
    rw [if_neg (Nat.not_lt.2 h.enough)]
    cases hmax : c.maxArgs with
    | none => rfl
    | some max => exact if_neg (Nat.not_lt.2 (h.bounded max hmax))

end Command

/-- The requests that words make. -/
theorem Request.ofWords_eq_ok_iff {word : String} {args : List String} {request : Request} :
    ofWords word args = .ok request ↔ ∃ c, Command.Selects word c ∧ c.Takes args.length ∧
      c.verb.request? args = some request := by
  unfold ofWords
  constructor
  · intro h
    split at h
    · cases h
    · rename_i c hlookup
      split at h
      · cases h
      · rename_i hcount
        split at h
        · rename_i hrequest
          cases h
          exact ⟨c, Command.lookup_eq_ok_iff.1 hlookup, Command.checkCount_eq_ok_iff.1 hcount,
            hrequest⟩
        · cases h
  · rintro ⟨c, hselects, htakes, hrequest⟩
    rw [Command.lookup_eq_ok_iff.2 hselects]
    dsimp only
    rw [Command.checkCount_eq_ok_iff.2 htakes]
    dsimp only
    rw [hrequest]

/-! ## Verdicts -/

/-- What becomes of the words of a line. -/
inductive Verdict where
  /-- There is none, and nothing is done. -/
  | skipped
  /-- An error is reported. -/
  | refused (e : CommandError)
  /-- The handler of a command gets the words. -/
  | handled (c : Command)

namespace Verdict

/-- Which words have which verdict. -/
inductive Of : List String → Verdict → Prop
  | skipped : Of [] .skipped
  | missed {word : String} {args : List String} {cause : LookupError}
    (misses : Command.Misses word cause) : Of (word :: args) (.refused (.lookup cause))
  | tooFew {word : String} {args : List String} {c : Command} (selects : Command.Selects word c)
    (few : args.length < c.minArgs) :
    Of (word :: args) (.refused (.tooFewArgs c.minArgs args.length))
  | tooMany {word : String} {args : List String} {c : Command} (selects : Command.Selects word c)
    {max : Nat} (bound : c.maxArgs = some max) (many : max < args.length) :
    Of (word :: args) (.refused (.tooManyArgs max args.length))
  | handled {word : String} {args : List String} {c : Command} (selects : Command.Selects word c)
    (takes : c.Takes args.length) : Of (word :: args) (.handled c)

/-- The verdict as the dispatcher finds it. -/
def find : List String → Verdict
  | [] => .skipped
  | word :: args =>
    match Command.lookup word with
    | .error cause => .refused (.lookup cause)
    | .ok c =>
      match c.checkCount args.length with
      | .error e => .refused e
      | .ok () => .handled c

theorem find_eq_of {words : List String} {verdict : Verdict} (h : Of words verdict) :
    find words = verdict := by
  unfold find
  cases h with
  | skipped => rfl
  | missed misses =>
    dsimp only
    rw [Command.lookup_eq_error_iff.2 misses]
  | tooFew selects few =>
    dsimp only
    rw [Command.lookup_eq_ok_iff.2 selects]
    dsimp only
    rw [Command.checkCount_of_lt few]
  | tooMany selects bound many =>
    dsimp only
    rw [Command.lookup_eq_ok_iff.2 selects]
    dsimp only
    rw [Command.checkCount_of_max_lt selects.mem bound many]
  | handled selects takes =>
    dsimp only
    rw [Command.lookup_eq_ok_iff.2 selects]
    dsimp only
    rw [Command.checkCount_eq_ok_iff.2 takes]

theorem exists_of (words : List String) : ∃ verdict, Of words verdict := by
  cases words with
  | nil => exact ⟨_, .skipped⟩
  | cons word args =>
    cases hlookup : Command.lookup word with
    | error cause => exact ⟨_, .missed (Command.lookup_eq_error_iff.1 hlookup)⟩
    | ok c =>
      have hselects := Command.lookup_eq_ok_iff.1 hlookup
      by_cases hfew : args.length < c.minArgs
      · exact ⟨_, .tooFew hselects hfew⟩
      · by_cases hmany : ∃ max, c.maxArgs = some max ∧ max < args.length
        · obtain ⟨max, hmax, hlt⟩ := hmany
          exact ⟨_, .tooMany hselects hmax hlt⟩
        · refine ⟨_, .handled hselects ⟨Nat.not_lt.1 hfew, fun max hmax => Nat.not_lt.1 ?_⟩⟩
          exact fun hlt => hmany ⟨max, hmax, hlt⟩

theorem of_find (words : List String) : Of words (find words) := by
  obtain ⟨verdict, hof⟩ := exists_of words
  rw [find_eq_of hof]
  exact hof

end Verdict

/-! ## Handlers and the words that they take for granted -/

/-- How many words of a line a handler reads without asking whether there are so many. -/
def Verb.reads : Verb → Nat
  | .whatis | .setBreak | .deleteBreak | .info => 2
  | .globals => 1
  | _ => 0

/-- Whether a request is made with an argument in any case. -/
def Verb.needsArgument : Verb → Bool
  | .whatis | .frame | .setBreak | .deleteBreak | .info => true
  | _ => false

/-- The words from a place on, which must be there. -/
def wordsAfter? (count : Nat) (words : List String) : Option (List String) :=
  if count ≤ words.length then some (words.drop count) else none

namespace Session

/-- What the handler of a verb does with all words of a line; none if a word is not there that it
reads without asking. -/
def handle? (s : Session) (words : List String) : Verb → Option Reply
  | .step => some (s.reply .step)
  | .next => some (s.reply .next)
  | .finish => some (s.reply .finish)
  | .run => some (s.reply .run)
  | .traceOn => some (setTracing true)
  | .traceOff => some (setTracing false)
  | .locals => some (s.locals words[1]?)
  | .globals =>
    if words.length = 1 then some s.allGlobals else (wordsAfter? 1 words).map s.globals
  | .parameters => some (s.parameters words[1]?)
  | .whatis => words[1]?.map s.whatis
  | .env => some s.env
  | .backtrace => some (s.backtrace words[1]?)
  | .frame => some (words[1]?.elim (s.moveTo 1 true) s.frame)
  | .up => some (s.up words[1]?)
  | .down => some (s.down words[1]?)
  | .setBreak => words[1]?.map s.setBreak
  | .deleteBreak => words[1]?.map s.deleteBreak
  | .info => words[1]?.map s.info
  | .help => some (help words[1]?)
  | .quit => some (quit words[1]?)

/-- What is done with the words of a line; none if a word is not there that is read without
asking. -/
def dispatch? (s : Session) (words : List String) : Option Reply :=
  if words.isEmpty then some (.lines ["Empty line skipped"])
  else do
    let word ← words[0]?
    match Command.lookup word with
    | .error cause => some (.fail (.lookup cause))
    | .ok c =>
      let count ← words.length.ppred
      match c.checkCount count with
      | .error e => some (.fail e)
      | .ok () => s.handle? words c.verb

end Session

/-- What a verdict makes of the words. -/
def Verdict.reply? (s : Session) (words : List String) : Verdict → Option Reply
  | .skipped => some (.lines ["Empty line skipped"])
  | .refused e => some (.fail e)
  | .handled c => s.handle? words c.verb

/-- What is shown of a line that comes to no handler. -/
def Verdict.text? : Verdict → Option String
  | .skipped => some "Empty line skipped\n"
  | .refused e => some (Session.reportText e)
  | .handled _ => none

namespace Session

variable {s : Session} {words : List String}

theorem isSome_handle?_iff {v : Verb} : (s.handle? words v).isSome ↔ v.reads ≤ words.length := by
  have hargument : words[1]?.isSome ↔ 2 ≤ words.length := by
    rw [Option.isSome_iff_ne_none, Ne, List.getElem?_eq_none_iff, Nat.not_le]
    rfl
  cases v with
  | whatis | setBreak | deleteBreak | info =>
    unfold handle?
    rw [Option.isSome_map]
    exact hargument
  | globals =>
    unfold handle? wordsAfter?
    change _ ↔ 1 ≤ words.length
    dsimp only
    split
    · exact ⟨fun _ => Nat.le_of_eq (Eq.symm ‹_›), fun _ => rfl⟩
    · rw [Option.isSome_map]
      split
      · exact ⟨fun _ => ‹_›, fun _ => rfl⟩
      · exact ⟨nofun, fun hle => absurd hle ‹_›⟩
  | _ => exact ⟨fun _ => Nat.zero_le _, fun _ => rfl⟩

example (s : Session) : s.handle? ["info"] .info = none := rfl

/-- The dispatcher comes to a verdict with the words that it reads. -/
theorem dispatch?_eq (s : Session) (words : List String) :
    s.dispatch? words = (Verdict.find words).reply? s words := by
  cases words with
  | nil => rfl
  | cons word args =>
    unfold dispatch? Verdict.find
    have hcount : (word :: args).length.ppred = some args.length := rfl
    simp only [List.isEmpty_cons, Bool.false_eq_true, if_false, List.getElem?_cons_zero, hcount,
      Option.bind_eq_bind, Option.bind_some]
    cases Command.lookup word with
    | error cause => rfl
    | ok c =>
      dsimp only
      cases c.checkCount args.length with
      | error e => rfl
      | ok _ => rfl

theorem handle?_eq_reply {word : String} {args : List String} {v : Verb} {request : Request}
    (h : v.request? args = some request) :
    s.handle? (word :: args) v = some (s.reply request) := by
  cases v with
  | whatis | frame | setBreak | deleteBreak | info =>
    obtain ⟨arg, harg, rfl⟩ := Option.map_eq_some_iff.1 h
    unfold handle?
    rw [List.getElem?_cons_succ, harg]
    rfl
  | globals =>
    cases h
    cases args with
    | nil => rfl
    | cons name names => rfl
  | _ =>
    cases h
    rfl

theorem isSome_request? {v : Verb} {args : List String} (h : v.needsArgument = true → args ≠ []) :
    (v.request? args).isSome := by
  cases v with
  | whatis | frame | setBreak | deleteBreak | info =>
    obtain ⟨arg, rest, rfl⟩ := List.exists_cons_of_ne_nil (h rfl)
    rfl
  | _ => rfl

/-- The handler of a command that admits the number of arguments finds the words that it reads. -/
theorem handle?_of_takes (s : Session) (word : String) {args : List String} {c : Command}
    (hc : c ∈ Command.all) (htakes : c.Takes args.length) :
    ∃ request, c.verb.request? args = some request ∧
      s.handle? (word :: args) c.verb = some (s.reply request) := by
  have hneeds : ∀ c ∈ Command.all, c.verb.needsArgument = true → 0 < c.minArgs := by decide
  have hargument : c.verb.needsArgument = true → args ≠ [] := fun h =>
    List.length_pos_iff.1 (Nat.lt_of_lt_of_le (hneeds c hc h) htakes.enough)
  obtain ⟨request, hrequest⟩ := Option.isSome_iff_exists.1 (isSome_request? hargument)
  exact ⟨request, hrequest, handle?_eq_reply hrequest⟩

theorem reply?_eq_of {words : List String} {verdict : Verdict} (s : Session)
    (h : Verdict.Of words verdict) : verdict.reply? s words = some (s.replyTo words) := by
  unfold replyTo
  cases h with
  | skipped => rfl
  | missed misses =>
    unfold Request.ofWords
    dsimp only
    rw [Command.lookup_eq_error_iff.2 misses]
    rfl
  | tooFew selects few =>
    unfold Request.ofWords
    dsimp only
    rw [Command.lookup_eq_ok_iff.2 selects]
    dsimp only
    rw [Command.checkCount_of_lt few]
    rfl
  | tooMany selects bound many =>
    unfold Request.ofWords
    dsimp only
    rw [Command.lookup_eq_ok_iff.2 selects]
    dsimp only
    rw [Command.checkCount_of_max_lt selects.mem bound many]
    rfl
  | @handled word args c selects takes =>
    obtain ⟨request, hrequest, hhandle⟩ := s.handle?_of_takes word selects.mem takes
    have hwords := Request.ofWords_eq_ok_iff.2 ⟨c, selects, takes, hrequest⟩
    dsimp only
    rw [hwords]
    exact hhandle

/-- Of a line that comes to no handler its text is shown, and nothing else is done. -/
theorem carryOut_of_text? {verdict : Verdict} {r : Reply} {text : String}
    (hreply : verdict.reply? s words = some r) (htext : verdict.text? = some text) :
    (s.console.admits text = true →
        s.carryOut r = ⟨{ s with console := s.console.showing text }, .ok .prompt⟩) ∧
      (s.console.admits text = false →
        s.carryOut r = ⟨s.writePartly text, .error .outputFull⟩) := by
  cases verdict with
  | handled c => cases htext
  | skipped =>
    cases htext
    cases hreply
    have heffects : (Reply.lines ["Empty line skipped"]).effects =
        [.write "Empty line skipped\n"] := rfl
    have henact : s.enact? (.write "Empty line skipped\n") = s.write? "Empty line skipped\n" := rfl
    unfold carryOut
    rw [heffects]
    unfold perform
    rw [henact]
    refine ⟨fun h => ?_, fun h => ?_⟩
    · rw [write?_of_admits h]
      rfl
    · rw [write?_of_not_admits h]
      rfl
  | refused e =>
    cases htext
    cases hreply
    unfold carryOut
    dsimp only [Reply.fail, perform]
    refine ⟨fun h => ?_, fun h => ?_⟩
    · rw [write?_of_admits h]
    · rw [write?_of_not_admits h]

/-- The words of every line have one verdict, and in every session all words are there that are read
on the way to it: those that the dispatcher reads, and if the handler of a command gets the words,
those that the handler reads. A line that is skipped or refused comes to no handler: it shows just
the notice or the report, and the next command is asked for unless the output is full. -/
theorem dispatch_in_range (s : Session) (line : String) :
    let words := Text.commandWords line
    ∃ verdict, (∀ other, Verdict.Of words other ↔ other = verdict) ∧
      (∀ c, verdict = .handled c → c.verb.reads ≤ words.length) ∧
      verdict.reply? s words = some (s.replyTo words) ∧
      s.dispatch? words = some (s.replyTo words) ∧
      s.execute line = s.carryOut (s.replyTo words) ∧
      ∀ text, verdict.text? = some text →
        (s.console.admits text = true →
            s.execute line = ⟨{ s with console := s.console.showing text }, .ok .prompt⟩) ∧
          (s.console.admits text = false →
            s.execute line = ⟨s.writePartly text, .error .outputFull⟩) := by
  intro words
  have hreply := s.reply?_eq_of (Verdict.of_find words)
  refine ⟨Verdict.find words, fun other => ⟨fun h => (Verdict.find_eq_of h).symm, ?_⟩, ?_, hreply,
    (s.dispatch?_eq words).trans hreply, rfl, fun text htext => carryOut_of_text? hreply htext⟩
  · rintro rfl
    exact Verdict.of_find words
  · intro c hc
    rw [hc] at hreply
    exact isSome_handle?_iff.1 (Option.isSome_iff_exists.2 ⟨_, hreply⟩)

end Session

end TraceDebugger
