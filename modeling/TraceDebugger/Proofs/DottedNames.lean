import TraceDebugger.Proofs.LexicalLookup
import TraceDebugger.Proofs.QualifiedNames

/-!
# Names with a dot

What stands before the first dot of a name is taken for a local variable, and then the name is
refused, or else for the short name of a package (`Program.resolve_dotted`). Nothing else is
considered. A parameter, which comes right after the local variables for a name without a dot, is
passed over (`Program.resolve_past_parameter`).

The slots in the table of a function are slots that it has (`Program.Reachable.slotted`), so a
local variable that is looked up is there.
-/

namespace TraceDebugger

/-! ## Slots that are there -/

namespace Function

variable {f : Function}

/-- Every slot in the table is one of the function. -/
def Slotted (f : Function) : Prop :=
  ∀ key slot, f.slots.find? key = some slot → slot < f.locals.length

theorem slotted_of_empty (h : f.slots = .empty) : f.Slotted := by
  intro key slot hslot
  rw [h] at hslot
  cases hslot

theorem Slotted.addLocal (h : f.Slotted) (v : LocalDecl) : (f.addLocal v).Slotted := by
  intro key slot hslot
  change (f.slots.insert v.key f.locals.length).find? key = _ at hslot
  change slot < (f.locals ++ [v.withSlot f.locals.length]).length
  rw [List.length_append, List.length_singleton]
  rw [Table.find?_insert_eq] at hslot
  split at hslot
  · cases hslot
    omega
  · have hlt := h key slot hslot
    omega

theorem Slotted.addLocals (h : f.Slotted) (vars : List LocalDecl) : (f.addLocals vars).Slotted := by
  induction vars generalizing f with
  | nil => exact h
  | cons v rest ih => exact ih (h.addLocal v)

theorem Slotted.adopt (h : f.Slotted) (source : FuncSource) : (f.adopt source).Slotted := by
  unfold Function.adopt
  split
  · exact h
  · exact h

end Function

namespace Package

variable {pkg pkg' : Package}

theorem Finished.slotted (h : pkg.Finished) : ∀ f ∈ pkg.functions, f.Slotted :=
  h.forall_functions (fun _ => Function.slotted_of_empty rfl)
    (fun _ source vars hf => (hf.adopt source).addLocals vars)
    fun _ _ _ _ _ _ => (Function.slotted_of_empty rfl).addLocals _

theorem Step.slotted (h : ∀ f ∈ pkg.functions, f.Slotted) (hstep : pkg.Step pkg') :
    ∀ f ∈ pkg'.functions, f.Slotted := by
  intro f hf
  cases hstep with
  | stays => exact h f hf
  | wrapper _ _ wraps =>
    rcases List.mem_append.1 hf with hf | hf
    · exact h f hf
    · rw [List.mem_singleton.1 hf]
      rcases wraps with rfl | rfl
      · exact Function.slotted_of_empty rfl
      · exact Function.slotted_of_empty rfl
  | anonymous inside =>
    rcases mem_modifyFunction hf with hf | ⟨g, hg, rfl⟩
    · rcases List.mem_append.1 hf with hf | hf
      · exact h f hf
      · rw [List.mem_singleton.1 hf]
        exact Function.slotted_of_empty rfl
    · rcases List.mem_append.1 hg with hg | hg
      · exact h g hg
      · rw [List.mem_singleton.1 hg]
        exact Function.slotted_of_empty rfl
  | blocks id blocks =>
    rcases mem_modifyFunction hf with hf | ⟨g, hg, rfl⟩
    · exact h f hf
    · exact h g hg

theorem lookupLocal?_lt {f : Function} (h : f.Slotted) {scope : Option ScopeId} {name : String}
    {slot : Nat} (hslot : pkg.lookupLocal? f scope name = some slot) : slot < f.locals.length := by
  obtain ⟨start, -, hfind⟩ := Option.bind_eq_some_iff.1 hslot
  obtain ⟨s, -, hs⟩ := List.exists_of_findSome?_eq_some hfind
  exact h _ _ hs

end Package

namespace Program

variable {q : Program} {pkg : Package} {fid : FunctionId} {f : Function} {scope : Option ScopeId}
  {name qualifier rest : String}

theorem Reachable.slotted (h : q.Reachable) (hf : q.function? fid = some f) : f.Slotted := by
  obtain ⟨pkg, hpkg, hf⟩ := Option.bind_eq_some_iff.1 hf
  have hall := h.package_induction (P := fun pkg => ∀ f ∈ pkg.functions, f.Slotted)
    (fun _ hfinished => hfinished.slotted) (fun _ _ hpkg hstep => hstep.slotted hpkg)
  exact hall pkg (package?_mem hpkg) f (Package.mem_of_function? hf)

/-! ## What stands before the dot -/

theorem resolveMember?_ne_local (slot : Nat) (var : Local) :
    q.resolveMember? pkg name ≠ some (.local slot var) := by
  intro h
  obtain ⟨m, -, hm⟩ := Option.bind_eq_some_iff.1 h
  cases m with
  | function _ id =>
    obtain ⟨g, -, hg⟩ := Option.map_eq_some_iff.1 hm
    cases hg
  | global | const | type => cases hm

theorem resolve_local_iff (hslotted : f.Slotted) (hhome : q.package? f.package = some pkg)
    (hdot : '.' ∉ qualifier.toList) :
    (∃ slot var, q.resolve f scope qualifier = .ok (.local slot var)) ↔
      (pkg.lookupLocal? f scope qualifier).isSome = true := by
  rw [resolve_eq hhome hdot]
  cases hslot : pkg.lookupLocal? f scope qualifier with
  | some slot =>
    have hvar := List.getElem?_eq_getElem (Package.lookupLocal?_lt hslotted hslot)
    rw [resolveBare?_of_lookup hslot hvar]
    exact ⟨fun _ => rfl, fun _ => ⟨slot, _, rfl⟩⟩
  | none =>
    rw [resolveBare?_of_lookup_none hslot]
    refine ⟨fun ⟨slot, var, h⟩ => ?_, fun h => nomatch h⟩
    cases hparam : f.findParam? qualifier with
    | some e =>
      rw [hparam] at h
      cases h
    | none =>
      cases hmember : q.resolveMember? pkg qualifier with
      | some referent =>
        rw [hparam, hmember] at h
        cases h
        exact absurd hmember (resolveMember?_ne_local slot var)
      | none =>
        cases hnamed : q.named? qualifier with
        | some other =>
          rw [hparam, hmember, hnamed] at h
          cases h
        | none =>
          rw [hparam, hmember, hnamed] at h
          cases h

/-- What a name means whose part before the dot is the short name of a package. -/
inductive Qualifies (q : Program) (qualifier name : String) :
    Except ResolveError Referent → Prop where
  /-- The member of the last package with that short name. -/
  | member {target : Package} {referent : Referent} (last : q.LastNamed qualifier target)
      (found : q.resolveMember? target name = some referent) :
      Qualifies q qualifier name (.ok referent)
  /-- Nothing, if that package has no such member. -/
  | stranger {target : Package} (last : q.LastNamed qualifier target)
      (missing : target.member? name = none) :
      Qualifies q qualifier name (.error (.notAMember name target.path))
  /-- Nothing, if there is no package of that short name. -/
  | nothing (missing : ∀ target, ¬ q.LastNamed qualifier target) :
      Qualifies q qualifier name (.error (.notFound qualifier))

theorem Intact.resolveMember?_eq_none (h : q.Intact) {target : Package}
    (hlast : q.LastNamed qualifier target) (hnone : q.resolveMember? target name = none) :
    target.member? name = none := by
  cases hmember : target.member? name with
  | none => rfl
  | some m =>
    cases m with
    | function own id =>
      obtain ⟨g, -, hg⟩ := h.resolveMember?_function hlast hmember
      rw [hg] at hnone
      cases hnone
    | global | const | type =>
      unfold resolveMember? at hnone
      rw [hmember] at hnone
      cases hnone

/-- A name with a dot is refused if a local variable stands before the dot. Otherwise it is looked
for in the last package whose short name stands there, whatever else the part before the dot means. -/
theorem resolve_dotted (hreach : q.Reachable) (hf : q.function? fid = some f)
    (hsplit : Text.splitAt? '.' name = some (qualifier, rest)) :
    ((∃ slot var, q.resolve f scope qualifier = .ok (.local slot var)) →
      q.resolve f scope name = .error (.dottedLocal qualifier)) ∧
    ((∀ slot var, q.resolve f scope qualifier ≠ .ok (.local slot var)) →
      q.Qualifies qualifier rest (q.resolve f scope name)) := by
  have hintact := hreach.intact
  obtain ⟨pkg, hpkg, -⟩ := Option.bind_eq_some_iff.1 hf
  have hhome : q.package? f.package = some pkg := by
    rw [hintact.package_of_function? hf]
    exact hpkg
  have hdot : '.' ∉ qualifier.toList := (Text.splitAt?_eq_some hsplit).2
  have hlocal : (∃ slot var, q.resolve f scope qualifier = .ok (.local slot var)) ↔ _ :=
    resolve_local_iff (hreach.slotted hf) hhome hdot
  have hresolve : q.resolve f scope name = q.resolveQualified pkg f scope qualifier rest := by
    unfold resolve
    rw [hhome]
    dsimp only
    rw [hsplit]
  rw [hresolve]
  unfold resolveQualified
  refine ⟨fun h => if_pos (hlocal.1 h), fun h => ?_⟩
  have hnone : ¬ (pkg.lookupLocal? f scope qualifier).isSome = true := by
    intro hsome
    obtain ⟨slot, var, hvar⟩ := hlocal.2 hsome
    exact h slot var hvar
  rw [if_neg hnone]
  cases hnamed : q.named? qualifier with
  | none =>
    refine .nothing fun target hlast => ?_
    rw [hintact.named?_iff.2 hlast] at hnamed
    cases hnamed
  | some target =>
    have hlast := hintact.named?_iff.1 hnamed
    dsimp only
    cases hmember : q.resolveMember? target rest with
    | none => exact .stranger hlast (hintact.resolveMember?_eq_none hlast hmember)
    | some referent => exact .member hlast hmember

/-! ### A parameter with the name of a package -/

/-- A unit with a function whose parameter is called `lib`, and in whose block a variable is. -/
def borrowing : SourceUnit where
  path := "m"
  name := "m"
  importable := true
  error := none
  objects := [.func "g" none ⟨none, [⟨"lib", .basic .int⟩], [], false⟩,
    .var "lib" none (.basic .int), .var "lib" none (.basic .string)]
  scopes := [⟨{}, .ofList [("g", ⟨0⟩)], [⟨1⟩]⟩, ⟨{}, .empty, [⟨2⟩]⟩,
    ⟨{}, .ofList [("lib", ⟨1⟩)], [⟨3⟩]⟩, ⟨{}, .ofList [("lib", ⟨2⟩)], []⟩]
  files := [⟨"g.go", [.func ⟨⟨"g", some ⟨0⟩, none⟩, none, [], some ⟨2⟩, none, {}⟩]⟩]

/-- A program with a package of short name `lib` and that unit. -/
def withBorrowing : Program := .built {} [.create (Session.library "a/lib"), .create borrowing]

theorem resolve_dotted_withBorrowing :
    let q := withBorrowing
    ∃ f, (q.Reachable ∧ q.function? ⟨⟨1⟩, 1⟩ = some f ∧
      Text.splitAt? '.' "lib.f" = some ("lib", "f")) ∧
    ((∃ slot var, q.resolve f (some ⟨3⟩) "lib" = .ok (.local slot var)) →
      q.resolve f (some ⟨3⟩) "lib.f" = .error (.dottedLocal "lib")) ∧
    ((∀ slot var, q.resolve f (some ⟨3⟩) "lib" ≠ .ok (.local slot var)) →
      q.Qualifies "lib" "f" (q.resolve f (some ⟨3⟩) "lib.f")) := by
  intro q
  have hreach : q.Reachable := ⟨_, _, rfl⟩
  obtain ⟨f, hf⟩ : ∃ f, q.function? ⟨⟨1⟩, 1⟩ = some f := ⟨_, rfl⟩
  have hsplit : Text.splitAt? '.' "lib.f" = some ("lib", "f") := rfl
  exact ⟨f, ⟨hreach, hf, hsplit⟩, resolve_dotted hreach hf hsplit⟩

/-- In the function `lib` is the parameter, and `lib.f` a function of another package. -/
theorem resolve_past_parameter :
    let q := withBorrowing
    q.Reachable ∧ ∃ f g, q.function? ⟨⟨1⟩, 1⟩ = some f ∧
      q.resolve f none "lib" = .ok (.param 0 ⟨"lib", .basic .int⟩) ∧
      q.function? ⟨⟨0⟩, 1⟩ = some g ∧ q.resolve f none "lib.f" = .ok (.function g) :=
  ⟨⟨_, _, rfl⟩, _, _, rfl, rfl, rfl, rfl⟩

end Program

end TraceDebugger
