import TraceDebugger.Proofs.DottedNames
import TraceDebugger.Proofs.SelectedCall

/-!
# Three ways to ask for a variable

A local variable, a parameter and a package-level variable can each be asked for by a command of its
own or by the one that describes whatever a name means. The commands find the variable each in its
own way, by slot, by place or by package and name, but they find the same
(`Session.listings_agree`): what stands in the way of it would be a slot that is not there, a member
under another name or a function that is not in its package, and none of these occurs in a program
that operations have made.
-/

namespace TraceDebugger

/-! ## Package-level variables that names mean -/

namespace Program

variable {q : Program} {pkg package : Package} {f : Function} {scope : Option ScopeId}
  {name : String} {g : Global}

theorem resolveMember?_eq_global (h : q.resolveMember? pkg name = some (.global package g)) :
    package = pkg ∧ pkg.member? name = some (.global g) := by
  obtain ⟨m, hmember, hm⟩ := Option.bind_eq_some_iff.1 h
  cases m with
  | function _ id =>
    obtain ⟨g', -, hg'⟩ := Option.map_eq_some_iff.1 hm
    cases hg'
  | global g' =>
    cases hm
    exact ⟨rfl, hmember⟩
  | const | type => cases hm

theorem resolveMember?_ne_param (index : Nat) (var : Var) :
    q.resolveMember? pkg name ≠ some (.param index var) := by
  intro h
  obtain ⟨m, -, hm⟩ := Option.bind_eq_some_iff.1 h
  cases m with
  | function _ id =>
    obtain ⟨g, -, hg⟩ := Option.map_eq_some_iff.1 hm
    cases hg
  | global | const | type => cases hm

/-- What a name without a dot means is of one of four kinds. -/
theorem resolveBare?_cases {referent : Referent}
    (h : q.resolveBare? pkg f scope name = some referent) :
    (∃ slot var, referent = .local slot var) ∨
      (∃ index var, f.findParam? name = some (index, var) ∧ referent = .param index var) ∨
      q.resolveMember? pkg name = some referent ∨ ∃ other, referent = .package other := by
  unfold resolveBare? at h
  cases hlocal : resolveLocal? pkg f scope name with
  | some r =>
    rw [hlocal] at h
    cases h
    obtain ⟨slot, -, hslot⟩ := Option.bind_eq_some_iff.1 hlocal
    obtain ⟨var, -, hvar⟩ := Option.bind_eq_some_iff.1 hslot
    cases hvar
    exact .inl ⟨slot, var, rfl⟩
  | none =>
    cases hparam : f.findParam? name with
    | some e =>
      rw [hlocal, hparam] at h
      cases h
      exact .inr (.inl ⟨e.1, e.2, rfl, rfl⟩)
    | none =>
      rw [hlocal, hparam] at h
      cases hmember : q.resolveMember? pkg name with
      | some r =>
        rw [hmember] at h
        exact .inr (.inr (.inl h))
      | none =>
        rw [hmember] at h
        obtain ⟨other, -, hother⟩ := Option.map_eq_some_iff.1 h
        exact .inr (.inr (.inr ⟨other, hother.symm⟩))

/-- A name without a dot means a variable of the package in which it is used. -/
theorem resolveBare?_eq_global (h : q.resolveBare? pkg f scope name = some (.global package g)) :
    q.resolveMember? pkg name = some (.global package g) := by
  rcases resolveBare?_cases h with ⟨_, _, heq⟩ | ⟨_, _, -, heq⟩ | hmember | ⟨_, heq⟩
  · cases heq
  · cases heq
  · exact hmember
  · cases heq

theorem resolveBare?_eq_param {index : Nat} {var : Var}
    (h : q.resolveBare? pkg f scope name = some (.param index var)) :
    f.findParam? name = some (index, var) := by
  rcases resolveBare?_cases h with ⟨_, _, heq⟩ | ⟨_, _, hparam, heq⟩ | hmember | ⟨_, heq⟩
  · cases heq
  · cases heq
    exact hparam
  · exact absurd hmember (resolveMember?_ne_param index var)
  · cases heq

/-- A name with a dot means a variable of the package before the dot. -/
theorem resolveQualified_eq_global {qualifier : String}
    (h : q.resolveQualified pkg f scope qualifier name = .ok (.global package g)) :
    q.named? qualifier = some package ∧
      q.resolveMember? package name = some (.global package g) := by
  unfold resolveQualified at h
  split at h
  · cases h
  · split at h
    · cases h
    · rename_i target hnamed
      split at h
      · rename_i referent hmember
        cases h
        obtain ⟨rfl, -⟩ := resolveMember?_eq_global hmember
        exact ⟨hnamed, hmember⟩
      · cases h

theorem Reachable.home (h : q.Reachable) {fid : FunctionId} (hf : q.function? fid = some f) :
    ∃ pkg, q.package? f.package = some pkg := by
  obtain ⟨pkg, hpkg, -⟩ := Option.bind_eq_some_iff.1 hf
  rw [← h.intact.package_of_function? hf] at hpkg
  exact ⟨pkg, hpkg⟩

/-- A package-level variable has the name under which it is found. -/
theorem Reachable.name_of_member? (h : q.Reachable) (hmem : pkg ∈ q.packages)
    (hmember : pkg.member? name = some (.global g)) : g.name = name :=
  ((h.coherent hmem).members name _ hmember).1

end Program

namespace Session

variable {s : Session} {frame : Frame} {f : Function} {package : Package} {g : Global}
  {name : String}

/-- By package and name a variable is found that a name means. -/
theorem globalKey?_of_resolve (hreach : s.program.Reachable)
    (hcall : s.frameAndFunction? = some (frame, f))
    (h : s.program.resolve f s.scope name = .ok (.global package g)) :
    s.globalKey? name = some (package.path, g.name) := by
  obtain ⟨hframe, hf⟩ := frameAndFunction?_eq_some hcall
  obtain ⟨pkg, hhome⟩ := hreach.home hf
  unfold Program.resolve at h
  rw [hhome] at h
  dsimp only at h
  unfold globalKey?
  cases hsplit : Text.splitAt? '.' name with
  | some parts =>
    obtain ⟨qualifier, rest⟩ := parts
    rw [hsplit] at h
    obtain ⟨hnamed, hmember⟩ := Program.resolveQualified_eq_global h
    have hmem : package ∈ s.program.packages := by
      obtain ⟨id, -, hid⟩ := Option.bind_eq_some_iff.1 hnamed
      exact Program.package?_mem hid
    have hname := hreach.name_of_member? hmem (Program.resolveMember?_eq_global hmember).2
    dsimp only
    rw [hnamed, hname]
    rfl
  | none =>
    rw [hsplit] at h
    dsimp only at h
    split at h
    · rename_i referent hbare
      cases h
      obtain ⟨rfl, hmember⟩ :=
        Program.resolveMember?_eq_global (Program.resolveBare?_eq_global hbare)
      have hname := hreach.name_of_member? (Program.package?_mem hhome) hmember
      have hpackage : s.package? = some package := by
        unfold package? function?
        rw [hframe, Option.bind_some, hf, Option.bind_some, hhome]
      dsimp only
      rw [hpackage, hname]
      rfl
    · cases h

theorem globalValue?_of_resolve (hreach : s.program.Reachable)
    (hcall : s.frameAndFunction? = some (frame, f))
    (h : s.program.resolve f s.scope name = .ok (.global package g)) :
    s.globalValue? name = s.engine.global? package.path g.name := by
  unfold globalValue?
  rw [globalKey?_of_resolve hreach hcall h]
  rfl

/-! ## What the commands show -/

/-- A description shows lines, where it is one of a variable. -/
theorem whatis_eq_lines (hcall : s.frameAndFunction? = some (frame, f)) {referent : Referent}
    {ls : List String} (h : s.program.resolve f s.scope name = .ok referent)
    (hdescribe : s.describe frame f name referent = ls.map (· ++ "\n")) :
    s.replyTo ["whatis", name] = .lines ls := by
  change s.whatis name = _
  unfold whatis
  rw [hcall]
  dsimp only
  rw [h]
  dsimp only
  rw [hdescribe, List.map_map]
  rfl

/-- The command for local variables finds the slot that the name means, and none if it means
something else. -/
theorem locals_eq (hreach : s.program.Reachable) (hcall : s.frameAndFunction? = some (frame, f))
    (hdot : '.' ∉ name.toList) :
    (∀ slot var, s.program.resolve f s.scope name = .ok (.local slot var) →
      s.replyTo ["locals", name] = .lines (Describe.localLines frame f slot)) ∧
    ((∀ slot var, s.program.resolve f s.scope name ≠ .ok (.local slot var)) →
      s.replyTo ["locals", name] = .fail (.noSuchLocal name)) := by
  obtain ⟨-, hf⟩ := frameAndFunction?_eq_some hcall
  obtain ⟨pkg, hhome⟩ := hreach.home hf
  have hiff : (∃ slot var, s.program.resolve f s.scope name = .ok (.local slot var)) ↔
      (pkg.lookupLocal? f s.scope name).isSome = true :=
    Program.resolve_local_iff (hreach.slotted hf) hhome hdot
  have hmissing : pkg.lookupLocal? f s.scope name = none →
      s.replyTo ["locals", name] = .fail (.noSuchLocal name) := by
    intro hslot
    change s.locals (some name) = _
    simp only [locals, hcall, hhome, hslot]
  have hfound : ∀ slot, pkg.lookupLocal? f s.scope name = some slot →
      s.replyTo ["locals", name] = .lines (Describe.localLines frame f slot) := by
    intro slot hslot
    change s.locals (some name) = _
    simp only [locals, hcall, hhome, hslot]
  cases hslot : pkg.lookupLocal? f s.scope name with
  | none =>
    refine ⟨fun slot var h => ?_, fun _ => hmissing hslot⟩
    have hsome := hiff.1 ⟨slot, var, h⟩
    rw [hslot] at hsome
    cases hsome
  | some slot =>
    refine ⟨fun slot' var h => ?_, fun h => ?_⟩
    · have hvar := List.getElem?_eq_getElem (Package.lookupLocal?_lt (hreach.slotted hf) hslot)
      rw [Program.resolve_eq hhome hdot, Program.resolveBare?_of_lookup hslot hvar] at h
      cases h
      exact hfound slot hslot
    · obtain ⟨slot', var, hvar⟩ := hiff.2 (by rw [hslot]; rfl)
      exact absurd hvar (h slot' var)

/-- The command for parameters finds the place that the name means. -/
theorem parameters_eq (hreach : s.program.Reachable)
    (hcall : s.frameAndFunction? = some (frame, f)) (hdot : '.' ∉ name.toList) {index : Nat}
    {var : Var} (h : s.program.resolve f s.scope name = .ok (.param index var)) :
    s.replyTo ["parameters", name] = .lines (Describe.paramLines frame f index) := by
  obtain ⟨-, hf⟩ := frameAndFunction?_eq_some hcall
  obtain ⟨pkg, hhome⟩ := hreach.home hf
  have hparam : f.findParam? name = some (index, var) := by
    rw [Program.resolve_eq hhome hdot] at h
    cases hbare : s.program.resolveBare? pkg f s.scope name with
    | none =>
      rw [hbare] at h
      cases h
    | some referent =>
      rw [hbare] at h
      cases h
      exact Program.resolveBare?_eq_param hbare
  change s.parameters (some name) = _
  unfold parameters
  rw [hcall]
  dsimp only
  rw [hparam]

/-- The command for package-level variables shows the value of the variable that the name means, if
it is known. -/
theorem globals_eq (hreach : s.program.Reachable) (hcall : s.frameAndFunction? = some (frame, f))
    (h : s.program.resolve f s.scope name = .ok (.global package g)) :
    let value := (s.engine.global? package.path g.name).map Value.deref
    (∀ v, value = some v → s.replyTo ["globals", name] = .lines [s!"{name}: {v.text}"]) ∧
      (value = none → s.replyTo ["globals", name] = .fail (.noSuchGlobal name)) := by
  have hvalue := globalValue?_of_resolve hreach hcall h
  change _ ∧ (_ → s.globals [name] = _)
  refine ⟨fun v hv => ?_, fun hnone => ?_⟩
  · obtain ⟨v', hv', rfl⟩ := Option.map_eq_some_iff.1 hv
    rw [hv'] at hvalue
    change s.globals [name] = _
    simp [globals, hvalue, globalLine, Reply.lines]
  · rw [Option.map_eq_none_iff.1 hnone] at hvalue
    simp [globals, hvalue, Reply.fail]

/-- The commands for one kind of variable agree with the one that describes what a name means. A
name without a dot that means a local variable or a parameter is shown alike, and nothing else is
shown as a local variable. Of any name that means a package-level variable both show the value that
the engine has for it, or both show none. -/
theorem listings_agree (hreach : s.program.Reachable)
    (hcall : s.frameAndFunction? = some (frame, f)) (name : String) :
    ('.' ∉ name.toList →
      (∀ slot var, s.program.resolve f s.scope name = .ok (.local slot var) →
        s.replyTo ["locals", name] = s.replyTo ["whatis", name]) ∧
      ((∀ slot var, s.program.resolve f s.scope name ≠ .ok (.local slot var)) →
        s.replyTo ["locals", name] = .fail (.noSuchLocal name)) ∧
      (∀ index var, s.program.resolve f s.scope name = .ok (.param index var) →
        s.replyTo ["parameters", name] = s.replyTo ["whatis", name])) ∧
    ∀ package g, s.program.resolve f s.scope name = .ok (.global package g) →
      let value := (s.engine.global? package.path g.name).map Value.deref
      let described := s.replyTo ["whatis", name]
      let listed := s.replyTo ["globals", name]
      described =
          .lines (Describe.globalLines package g none ++ value.toList.map (s!"  {·.text}")) ∧
        (listed.result = .ok .prompt ↔ value.isSome = true) ∧
        (∀ v, value = some v → listed = .lines [s!"{name}: {v.text}"]) ∧
        (value = none → listed = .fail (.noSuchGlobal name)) := by
  refine ⟨fun hdot => ?_, fun package g h => ?_⟩
  · obtain ⟨hlocal, hother⟩ := locals_eq hreach hcall hdot
    refine ⟨fun slot var h => ?_, hother, fun index var h => ?_⟩
    · rw [hlocal slot var h]
      exact (whatis_eq_lines hcall h rfl).symm
    · rw [parameters_eq hreach hcall hdot h]
      exact (whatis_eq_lines hcall h rfl).symm
  · intro value described listed
    obtain ⟨hknown, hunknown⟩ := globals_eq hreach hcall h
    refine ⟨?_, ?_, hknown, hunknown⟩
    · refine whatis_eq_lines hcall h ?_
      simp [describe, Referent.value?, Describe.globalLines, value]
    · cases hvalue : value with
      | some v =>
        have hlines : listed = .lines [s!"{name}: {v.text}"] := hknown v hvalue
        rw [hlines]
        exact ⟨fun _ => rfl, fun _ => rfl⟩
      | none =>
        have hfail : listed = .fail (.noSuchGlobal name) := hunknown hvalue
        rw [hfail]
        exact ⟨nofun, nofun⟩

/-- A unit with a package-level variable `x`, and with a function that has a parameter `a` and a
local variable `b`. -/
def threefold : SourceUnit where
  path := "m"
  name := "m"
  importable := false
  error := none
  objects := [.func "g" none ⟨none, [⟨"a", .basic .int⟩], [], false⟩, .var "b" none (.basic .int),
    .var "x" none (.basic .int)]
  scopes := [⟨{}, .ofList [("g", ⟨0⟩), ("x", ⟨2⟩)], [⟨1⟩]⟩, ⟨{}, .ofList [("b", ⟨1⟩)], []⟩]
  files := [⟨"g.go", [.func ⟨⟨"g", some ⟨0⟩, none⟩, none, [], some ⟨1⟩, none, {}⟩,
    .gen .var [.value [⟨"x", some ⟨2⟩, none⟩] {}] {}]⟩]

/-- A session in that function, where the engine knows the variable. -/
def inThreefold : Session :=
  .start (Program.built {} [.create threefold])
    ⟨[{ function := ⟨⟨0⟩, 1⟩, locals := [.int 5], params := [.int 6] }]⟩ {} .stepInstruction
    { globals := .ofList [("m.x", .int 7)] } {} {}

/-- There the commands agree on all three, the parameter is no local variable, and the package-level
variable is known by either of its names. -/
theorem listings_agree_inThreefold :
    let s := inThreefold
    ∃ frame f, s.program.Reachable ∧ s.frameAndFunction? = some (frame, f) ∧
      s.replyTo ["locals", "b"] = s.replyTo ["whatis", "b"] ∧
      s.replyTo ["locals", "a"] = .fail (.noSuchLocal "a") ∧
      s.replyTo ["parameters", "a"] = s.replyTo ["whatis", "a"] ∧
      s.replyTo ["globals", "x"] = .lines ["x: 7"] ∧
      s.replyTo ["globals", "m.x"] = .lines ["m.x: 7"] := by
  intro s
  have hreach : s.program.Reachable := ⟨_, _, rfl⟩
  obtain ⟨frame, f, hcall, hlocal, hparam, ⟨package, g, hbare, hdotted, hvalue⟩⟩ :
      ∃ frame f, s.frameAndFunction? = some (frame, f) ∧
        (∃ var, s.program.resolve f s.scope "b" = .ok (.local 0 var)) ∧
        (∃ var, s.program.resolve f s.scope "a" = .ok (.param 0 var)) ∧
        ∃ package g, s.program.resolve f s.scope "x" = .ok (.global package g) ∧
          s.program.resolve f s.scope "m.x" = .ok (.global package g) ∧
          (s.engine.global? package.path g.name).map Value.deref = some (.int 7) :=
    ⟨_, _, rfl, ⟨_, rfl⟩, ⟨_, rfl⟩, _, _, rfl, rfl, rfl⟩
  obtain ⟨hb, -⟩ := listings_agree hreach hcall "b"
  obtain ⟨ha, -⟩ := listings_agree hreach hcall "a"
  obtain ⟨-, hx⟩ := listings_agree hreach hcall "x"
  obtain ⟨-, hmx⟩ := listings_agree hreach hcall "m.x"
  obtain ⟨var, hvar⟩ := hlocal
  obtain ⟨var', hvar'⟩ := hparam
  refine ⟨frame, f, hreach, hcall, (hb (by decide)).1 _ _ hvar, (ha (by decide)).2.1 ?_,
    (ha (by decide)).2.2 _ _ hvar', ?_, ?_⟩
  · intro slot var h
    rw [hvar'] at h
    cases h
  · exact (hx package g hbare).2.2.1 _ hvalue
  · exact (hmx package g hdotted).2.2.1 _ hvalue

end Session

end TraceDebugger
