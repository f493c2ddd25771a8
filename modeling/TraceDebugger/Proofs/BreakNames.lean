import Mathlib.Data.Nat.Find
import TraceDebugger.Debugger.Turn
import TraceDebugger.Proofs.Integrity

/-!
# The function that a breakpoint is set on

A plain function name is completed with the short name of the package of the selected call, and the
function is then looked up by the qualified name. A short name leads to the last package that has
it (`Program.LastNamed`), so the breakpoint is on the function of that package, whether or not the
selected call is there.
-/

namespace TraceDebugger

/-! ## Qualified names -/

theorem Text.splitChars?_append {sep : Char} {before : List Char} (h : sep ∉ before)
    (after : List Char) : Text.splitChars? sep (before ++ sep :: after) = some (before, after) := by
  induction before with
  | nil => exact if_pos rfl
  | cons c before ih =>
    rw [List.mem_cons, not_or] at h
    rw [List.cons_append, Text.splitChars?, if_neg (Ne.symm h.1), ih h.2]
    rfl

theorem Text.toList_dotted (a b : String) :
    (a ++ "." ++ b).toList = a.toList ++ '.' :: b.toList := by
  rw [String.toList_append, String.toList_append, List.append_assoc]
  rfl

/-- A dotted text is cut at its first dot. -/
theorem Text.splitAt?_dotted {a : String} (h : '.' ∉ a.toList) (b : String) :
    Text.splitAt? '.' (a ++ "." ++ b) = some (a, b) := by
  unfold Text.splitAt?
  rw [Text.toList_dotted, Text.splitChars?_append h, Option.map_some, String.ofList_toList,
    String.ofList_toList]

namespace Program

variable {p : Program} {pkg : Package} {short name : String}

/-- Of the packages with a short name the one that was added last. -/
def LastNamed (p : Program) (short : String) (pkg : Package) : Prop :=
  ∃ id, p.package? id = some pkg ∧ pkg.name = short ∧
    ∀ id' pkg', p.package? id' = some pkg' → pkg'.name = short → id'.index ≤ id.index

theorem Intact.named?_iff (h : p.Intact) : p.named? short = some pkg ↔ p.LastNamed short pkg := by
  unfold named?
  rw [Option.bind_eq_some_iff]
  constructor
  · rintro ⟨id, hid, hpkg⟩
    obtain ⟨⟨pkg', hpkg', hname⟩, hlast⟩ := (h.byName short id).1 hid
    rw [hpkg, Option.some.injEq] at hpkg'
    subst hpkg'
    exact ⟨id, hpkg, hname, fun id' pkg' hpkg' hname' => hlast id' ⟨pkg', hpkg', hname'⟩⟩
  · rintro ⟨id, hpkg, hname, hlast⟩
    refine ⟨id, (h.byName short id).2 ⟨⟨pkg, hpkg, hname⟩, ?_⟩, hpkg⟩
    rintro id' ⟨pkg', hpkg', hname'⟩
    exact hlast id' pkg' hpkg' hname'

theorem exists_lastNamed {id : PackageId} (hpkg : p.package? id = some pkg) :
    ∃ last, p.LastNamed pkg.name last := by
  classical
  let has : Nat → Prop := fun i => ∃ pkg', p.package? ⟨i⟩ = some pkg' ∧ pkg'.name = pkg.name
  have hbound : ∀ i, has i → i ≤ p.packages.length := by
    rintro i ⟨pkg', hpkg', -⟩
    exact Nat.le_of_lt (List.getElem?_eq_some_iff.1 hpkg').1
  have hid : has id.index := ⟨pkg, hpkg, rfl⟩
  obtain ⟨last, hlast, hname⟩ := Nat.findGreatest_spec (P := has) (hbound _ hid) hid
  refine ⟨last, _, hlast, hname, fun id' pkg' hpkg' hname' => ?_⟩
  have hid' : has id'.index := ⟨pkg', hpkg', hname'⟩
  exact Nat.le_findGreatest (hbound _ hid') hid'

/-- A qualified name leads to the member of the last package with the short name. -/
theorem functionNamed?_qualified (hdot : '.' ∉ short.toList) : p.functionNamed? s!"{short}.{name}" =
    (p.named? short).bind fun pkg => (pkg.member? name).bind Member.function? := by
  have hsplit : Text.splitAt? '.' s!"{short}.{name}" = some (short, name) :=
    Text.splitAt?_dotted hdot name
  unfold functionNamed?
  rw [hsplit]
  rfl

/-- The function that the last package has under a name is the one that the name refers to there. -/
theorem Intact.resolveMember?_function (h : p.Intact) (hlast : p.LastNamed short pkg) {own : String}
    {fid : FunctionId} (hmember : pkg.member? name = some (.function own fid)) :
    ∃ f, p.function? fid = some f ∧ p.resolveMember? pkg name = some (.function f) := by
  obtain ⟨id, hpkg, -⟩ := hlast
  obtain ⟨f, hf⟩ := h.function_of_holds (.package (package?_mem hpkg) (.member hmember))
  refine ⟨f, hf, ?_⟩
  unfold resolveMember?
  rw [hmember]
  change (p.function? fid).map Referent.function = _
  rw [hf]
  rfl

end Program

/-! ## Setting breakpoints -/

namespace Session

theorem breakpoints_of_write? {s s' : Session} {text : String} (h : s.write? text = some s') :
    s'.breakpoints = s.breakpoints := by
  unfold write? at h
  obtain ⟨console, -, rfl⟩ := Option.map_eq_some_iff.1 h
  rfl

theorem breakpoints_carryOut_fail (s : Session) (e : CommandError) :
    (s.carryOut (.fail e)).session.breakpoints = s.breakpoints := by
  cases hwrite : s.write? (reportText e) with
  | none =>
    simp only [carryOut, Reply.fail, perform, hwrite]
    rfl
  | some s' =>
    simp only [carryOut, Reply.fail, perform, hwrite]
    exact breakpoints_of_write? hwrite

/-- A breakpoint is set before the user is told, so it is set even if the user cannot be. -/
theorem breakpoints_carryOut_add (s : Session) (fid : FunctionId) (location text : String) :
    (s.carryOut ⟨[.addBreakpoint fid location, .write text], .ok .prompt⟩).session.breakpoints =
      s.breakpoints.add fid location := by
  cases hwrite : ({ s with breakpoints := s.breakpoints.add fid location }.note
      [s.breakpoints.addRecord location]).write? text with
  | none =>
    simp only [carryOut, perform, enact?, hwrite]
    rfl
  | some s' =>
    simp only [carryOut, perform, enact?, hwrite]
    exact breakpoints_of_write? hwrite

theorem replyTo_break (s : Session) (name : String) :
    s.replyTo ["break", name] = s.setBreak name := rfl

/-- A breakpoint on a plain name is on the function that the last package with the short name of the
selected package has under it. If that is not a function the command says so and sets none. -/
theorem setBreak_plain {s : Session} {pkg : Package} {name : String}
    (hreach : s.program.Reachable) (hpkg : s.package? = some pkg)
    (hplain : '.' ∉ pkg.name.toList) (hdot : '.' ∉ name.toList) :
    let turn := s.carryOut (s.replyTo ["break", name])
    ∃ last, s.program.LastNamed pkg.name last ∧
      ((∃ own fid f, last.member? name = some (.function own fid) ∧
          s.program.function? fid = some f ∧
          s.program.resolveMember? last name = some (.function f) ∧
          turn.session.breakpoints = s.breakpoints.add fid s!"{pkg.name}.{name}") ∨
        ((∀ own fid, last.member? name ≠ some (.function own fid)) ∧
          s.replyTo ["break", name] = .fail (.notAFunction name) ∧
          turn.session.breakpoints = s.breakpoints)) := by
  intro turn
  have hintact := hreach.intact
  obtain ⟨f, -, hhome⟩ := Option.bind_eq_some_iff.1 hpkg
  obtain ⟨last, hlast⟩ := Program.exists_lastNamed hhome
  have hname : s.breakName? name = some s!"{pkg.name}.{name}" := by
    unfold breakName?
    rw [if_neg hdot, hpkg]
    rfl
  have hlookup : s.program.functionNamed? s!"{pkg.name}.{name}" =
      (last.member? name).bind Member.function? := by
    rw [Program.functionNamed?_qualified hplain, hintact.named?_iff.2 hlast]
    rfl
  refine ⟨last, hlast, ?_⟩
  cases hfunction : (last.member? name).bind Member.function? with
  | none =>
    have hreply : s.replyTo ["break", name] = .fail (.notAFunction name) := by
      rw [replyTo_break]
      simp only [setBreak, hname, hlookup, hfunction]
    refine .inr ⟨fun own fid hmember => ?_, hreply, ?_⟩
    · rw [hmember] at hfunction
      cases hfunction
    · change (s.carryOut (s.replyTo ["break", name])).session.breakpoints = _
      rw [hreply]
      exact s.breakpoints_carryOut_fail _
  | some fid =>
    obtain ⟨m, hm, hmember⟩ := Option.bind_eq_some_iff.1 hfunction
    obtain ⟨own, rfl⟩ : ∃ own, m = .function own fid := by
      cases m with
      | function own id =>
        cases hmember
        exact ⟨own, rfl⟩
      | _ => cases hmember
    obtain ⟨f, hf, hresolve⟩ := hintact.resolveMember?_function hlast hm
    refine .inl ⟨own, fid, f, hm, hf, hresolve, ?_⟩
    change (s.carryOut (s.replyTo ["break", name])).session.breakpoints = _
    rw [replyTo_break]
    simp only [setBreak, hname, hlookup, hfunction]
    exact s.breakpoints_carryOut_add _ _ _

/-! ### Two packages of one short name -/

/-- A unit of short name `lib` with a function `f`. -/
def library (path : String) : SourceUnit where
  path
  name := "lib"
  importable := true
  error := none
  objects := [.func "f" none ⟨none, [], [], false⟩]
  scopes := [⟨{}, .ofList [("f", ⟨0⟩)], []⟩]
  files := [⟨"f.go", [.func ⟨⟨"f", some ⟨0⟩, none⟩, none, [], none, none, {}⟩]⟩]

/-- A session in the function of the first of two packages of one short name. -/
def amongLibraries : Session :=
  .start (Program.built {} [.create (library "a/lib"), .create (library "b/lib")])
    ⟨[{ function := ⟨⟨0⟩, 1⟩ }]⟩ {} .stepInstruction {} {} {}

theorem setBreak_plain_amongLibraries :
    let s := amongLibraries
    let name := "f"
    let turn := s.carryOut (s.replyTo ["break", name])
    ∃ pkg, (s.program.Reachable ∧ s.package? = some pkg ∧ '.' ∉ pkg.name.toList ∧
      '.' ∉ name.toList) ∧
    ∃ last, s.program.LastNamed pkg.name last ∧
      ((∃ own fid f, last.member? name = some (.function own fid) ∧
          s.program.function? fid = some f ∧
          s.program.resolveMember? last name = some (.function f) ∧
          turn.session.breakpoints = s.breakpoints.add fid s!"{pkg.name}.{name}") ∨
        ((∀ own fid, last.member? name ≠ some (.function own fid)) ∧
          s.replyTo ["break", name] = .fail (.notAFunction name) ∧
          turn.session.breakpoints = s.breakpoints)) := by
  intro s name turn
  have hreach : s.program.Reachable := ⟨_, _, rfl⟩
  obtain ⟨pkg, hpkg, hname⟩ : ∃ pkg, s.package? = some pkg ∧ pkg.name = "lib" := ⟨_, rfl, rfl⟩
  have hplain : '.' ∉ pkg.name.toList := by
    rw [hname]
    decide
  exact ⟨pkg, ⟨hreach, hpkg, hplain, by decide⟩, setBreak_plain hreach hpkg hplain (by decide)⟩

/-- The breakpoint is on the function of the second package, though the selected call is in the
first, which has a function of that name. -/
theorem setBreak_elsewhere :
    let s := amongLibraries
    let turn := s.carryOut (s.replyTo ["break", "f"])
    s.program.Reachable ∧ ∃ pkg, s.package? = some pkg ∧
      pkg.member? "f" = some (.function "f" ⟨⟨0⟩, 1⟩) ∧
      turn.session.breakpoints.points.map (·.function) = [⟨⟨1⟩, 1⟩] :=
  ⟨⟨_, _, rfl⟩, _, rfl, rfl, rfl⟩

end Session

end TraceDebugger
