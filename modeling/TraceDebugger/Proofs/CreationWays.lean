import TraceDebugger.Proofs.Integrity

/-!
# What comes of making a package

Making a package of a unit goes one of five ways: the unit has errors, its path is there already,
its scopes have no end, an item is refused, or the finished package is added. Only the last of them
changes the program, and only the check afterwards depends on the diagnostics. So a refused unit
leaves no trace, and programs that differ in their diagnostics come out the same up to these
(`Program.create_up_to_diagnostics`).
-/

namespace TraceDebugger

/-- Whether a cause keeps a package from being added. The check of a finished package comes too late
for that. -/
def Violation.isRefusal : Violation → Bool
  | .inconsistent .. => false
  | _ => true

/-- Whether a cause is that an item of a unit cannot be made. -/
def Violation.isOfItem : Violation → Bool
  | .unresolved _ | .unexpectedObject .. | .unexpectedSpec .. | .badReceiver .. => true
  | _ => false

theorem Violation.isRefusal_of_isOfItem {cause : Violation} (h : cause.isOfItem = true) :
    cause.isRefusal = true := by
  cases cause with
  | inconsistent => cases h
  | _ => rfl

namespace Draft

theorem isOfItem_of_makeObject {d : Draft} {o : ObjectId} {source : DeclSource} {cause : Violation}
    (h : d.makeObject o source = .error cause) : cause.isOfItem = true := by
  unfold makeObject at h
  dsimp only at h
  split at h
  · cases h
  split at h
  · cases h
    rfl
  · cases h
  · cases h
  · cases h
  · split at h
    · cases h
    · split at h
      · cases h
      · cases h
        rfl
  · cases h
    rfl

theorem isOfItem_of_make {d : Draft} {item : Item} {cause : Violation}
    (h : d.make item = .error cause) : cause.isOfItem = true := by
  cases item with
  | file name => cases h
  | initializer decl => cases h
  | method o => exact isOfItem_of_makeObject h
  | misplaced kind spec =>
    cases h
    rfl
  | ident name object source =>
    cases hr : resolve d.package.unit name object with
    | ok o =>
      simp only [make, hr, bind, Except.bind] at h
      exact isOfItem_of_makeObject h
    | error cause' =>
      simp only [make, hr, bind, Except.bind] at h
      cases h
      unfold resolve at hr
      split at hr
      · split at hr <;> cases hr
        rfl
      · cases hr
        rfl

theorem isOfItem_of_build {d d' : Draft} {items : List Item} {cause : Violation}
    (h : d.build items = (d', some cause)) : cause.isOfItem = true := by
  induction items generalizing d with
  | nil => cases h
  | cons item rest ih =>
    unfold build at h
    cases hm : d.make item with
    | ok d₁ =>
      rw [hm] at h
      exact ih h
    | error cause' =>
      rw [hm] at h
      cases h
      exact isOfItem_of_make hm

end Draft

namespace Program

/-- A new unit of which all items are made. -/
structure Builds (p : Program) (u : SourceUnit) (draft : Draft) : Prop where
  error : u.error = none
  new : p.byIdentity.find? u.path = none
  ends : u.scopesEnd = true
  built : Draft.build { package := .start p.nextPackage u } u.items = (draft, none)

/-- The five ways of making a package of a unit. None of them depends on the diagnostics. -/
inductive Way (p : Program) (u : SourceUnit) : Prop where
  /-- The type checker found an error. -/
  | faulty {error : String} (herror : u.error = some error)
  /-- There is a package of that path. -/
  | known {id : PackageId} (herror : u.error = none)
      (hknown : p.byIdentity.find? u.path = some id)
  /-- The scopes have no end. -/
  | endless (herror : u.error = none) (hnew : p.byIdentity.find? u.path = none)
      (hends : u.scopesEnd = false)
  /-- An item cannot be made. -/
  | refused {draft : Draft} {cause : Violation} (herror : u.error = none)
      (hnew : p.byIdentity.find? u.path = none) (hends : u.scopesEnd = true)
      (hb : Draft.build { package := .start p.nextPackage u } u.items = (draft, some cause))
  /-- All items are made. -/
  | built {draft : Draft} (h : p.Builds u draft)

theorem way (p : Program) (u : SourceUnit) : p.Way u := by
  cases herror : u.error with
  | some error => exact .faulty herror
  | none =>
    cases hknown : p.byIdentity.find? u.path with
    | some id => exact .known herror hknown
    | none =>
      cases hends : u.scopesEnd with
      | false => exact .endless herror hknown hends
      | true =>
        rcases hb : Draft.build { package := .start p.nextPackage u } u.items with
          ⟨draft, _ | cause⟩
        · exact .built ⟨herror, hknown, hends, hb⟩
        · exact .refused herror hknown hends hb

/-! ## The answer on each way -/

variable {p : Program} {u : SourceUnit} {draft : Draft} {cause : Violation} {id : PackageId}

theorem create_of_error {error : String} (herror : u.error = some error) :
    (p.create u).program = p ∧ (p.create u).result = .error (.typeErrors u.path error) := by
  simp only [create, herror, and_self]

theorem create_of_known (herror : u.error = none) (hknown : p.byIdentity.find? u.path = some id) :
    (p.create u).program = p ∧ (p.create u).result = .ok id := by
  simp only [create, herror, hknown, and_self]

theorem create_of_endless (herror : u.error = none) (hnew : p.byIdentity.find? u.path = none)
    (hends : u.scopesEnd = false) :
    (p.create u).program = p ∧ (p.create u).result = .error (.endless u.path) := by
  simp only [create, herror, hnew, hends, Bool.not_false, if_true, and_self]

theorem create_of_refused (herror : u.error = none) (hnew : p.byIdentity.find? u.path = none)
    (hends : u.scopesEnd = true)
    (hb : Draft.build { package := .start p.nextPackage u } u.items = (draft, some cause)) :
    (p.create u).program = p ∧ (p.create u).result = .error cause := by
  simp only [create, herror, hnew, hends, hb, Bool.not_true, Bool.false_eq_true, if_false, and_self]

namespace Builds

theorem program (h : p.Builds u draft) :
    (p.create u).program = p.addPackage draft.finish draft.methods := by
  simp only [create, h.error, h.new, h.ends, h.built, Bool.not_true, Bool.false_eq_true, if_false]
  split <;> rfl

/-- A finished package is the answer unless the check is asked for and finds something. -/
theorem result (h : p.Builds u draft) : (p.create u).result =
    if p.diagnostics.checkFunctions = true ∧ (p.create u).program.problems draft.finish ≠ [] then
      .error (.inconsistent u.path (Text.joinWith "\n"
        (((p.create u).program.problems draft.finish).map Problem.message)))
    else .ok p.nextPackage := by
  have hid : draft.finish.id = p.nextPackage := (Draft.id_unit_of_build h.built).1
  have hdiagnostics : (p.addPackage draft.finish draft.methods).diagnostics = p.diagnostics := rfl
  rw [h.program]
  simp only [create, h.error, h.new, h.ends, h.built, checkedProblems, hdiagnostics, Bool.not_true,
    Bool.false_eq_true, if_false]
  by_cases hcheck : p.diagnostics.checkFunctions = true
  · by_cases hproblems : (p.addPackage draft.finish draft.methods).problems draft.finish = []
    · simp [hcheck, hproblems, hid]
    · simp [hcheck, hproblems]
  · simp [hcheck, hid]

theorem package? (h : p.Builds u draft) :
    (p.create u).program.package? p.nextPackage = some draft.finish := by
  rw [h.program, package?_addPackage, if_pos rfl]

end Builds

/-- A package that is the answer was there before, or it is the new one. -/
theorem create_ok_cases (h : (p.create u).result = .ok id) :
    (p.byIdentity.find? u.path = some id ∧ (p.create u).program = p) ∨
      ∃ draft, p.Builds u draft ∧ id = p.nextPackage := by
  cases p.way u with
  | faulty herror =>
    rw [(create_of_error herror).2] at h
    cases h
  | known herror hknown =>
    obtain ⟨hprogram, hresult⟩ := create_of_known herror hknown
    rw [hresult] at h
    cases h
    exact .inl ⟨hknown, hprogram⟩
  | endless herror hnew hends =>
    rw [(create_of_endless herror hnew hends).2] at h
    cases h
  | refused herror hnew hends hb =>
    rw [(create_of_refused herror hnew hends hb).2] at h
    cases h
  | built hbuilds =>
    rw [hbuilds.result] at h
    split at h
    · cases h
    · cases h
      exact .inr ⟨_, hbuilds, rfl⟩

/-- The program stays as it is unless a package is added. -/
theorem create_program_cases (p : Program) (u : SourceUnit) :
    (p.create u).program = p ∨ ∃ draft, p.Builds u draft := by
  cases p.way u with
  | faulty herror => exact .inl (create_of_error herror).1
  | known herror hknown => exact .inl (create_of_known herror hknown).1
  | endless herror hnew hends => exact .inl (create_of_endless herror hnew hends).1
  | refused herror hnew hends hb => exact .inl (create_of_refused herror hnew hends hb).1
  | built hbuilds => exact .inr ⟨_, hbuilds⟩

/-- What making one package keeps is kept by making packages of several units, also if one of them is
refused. -/
theorem createFrom_invariant {P : Program → Prop}
    (hcreate : ∀ q u, P q → P (q.create u).program) (units : List SourceUnit) :
    ∀ (p : Program) (ids : List PackageId) (failed : List String) (log : List Record), P p →
      P (p.createFrom ids failed log units).program := by
  induction units with
  | nil => intro p ids failed log hp; exact hp
  | cons u rest ih =>
    intro p ids failed log hp
    unfold createFrom
    split
    · exact ih p ids _ log hp
    · dsimp only
      split
      · exact ih _ _ _ _ (hcreate p u hp)
      · exact hcreate p u hp

/-- The package that is made of a new unit. -/
theorem exists_draft_of_create (hnew : p.byIdentity.find? u.path = none)
    (hcreate : (p.create u).result = .ok id) :
    ∃ d, Draft.build { package := .start p.nextPackage u } u.items = (d, none) ∧
      (p.create u).program = p.addPackage d.finish d.methods ∧ id = p.nextPackage := by
  rcases create_ok_cases hcreate with ⟨hknown, -⟩ | ⟨draft, hbuilds, hid⟩
  · rw [hnew] at hknown
    cases hknown
  · exact ⟨draft, hbuilds.built, hbuilds.program, hid⟩

/-! ## Diagnostics -/

/-- The program with other diagnostics. -/
def withDiagnostics (p : Program) (d : Diagnostics) : Program := { p with diagnostics := d }

theorem Builds.withDiagnostics (h : p.Builds u draft) (d : Diagnostics) :
    (p.withDiagnostics d).Builds u draft :=
  ⟨h.error, h.new, h.ends, h.built⟩

/-- The program that comes out is the same but for the diagnostics. -/
theorem create_program_withDiagnostics (p : Program) (u : SourceUnit) (d : Diagnostics) :
    ((p.withDiagnostics d).create u).program = (p.create u).program.withDiagnostics d := by
  cases p.way u with
  | faulty herror =>
    rw [(create_of_error (p := p) herror).1]
    exact (create_of_error herror).1
  | known herror hknown =>
    rw [(create_of_known herror hknown).1]
    exact (create_of_known (p := p.withDiagnostics d) herror hknown).1
  | endless herror hnew hends =>
    rw [(create_of_endless herror hnew hends).1]
    exact (create_of_endless (p := p.withDiagnostics d) herror hnew hends).1
  | refused herror hnew hends hb =>
    rw [(create_of_refused herror hnew hends hb).1]
    exact (create_of_refused (p := p.withDiagnostics d) herror hnew hends hb).1
  | built hbuilds =>
    rw [(hbuilds.withDiagnostics d).program, hbuilds.program]
    rfl

/-- A refusal leaves the program as it was and does not depend on the diagnostics. -/
theorem create_of_isRefusal (d : Diagnostics) (hcause : cause.isRefusal = true)
    (h : (p.create u).result = .error cause) :
    (p.create u).program = p ∧ ((p.withDiagnostics d).create u).result = .error cause := by
  cases p.way u with
  | faulty herror =>
    obtain ⟨hprogram, hresult⟩ := create_of_error (p := p) herror
    refine ⟨hprogram, ?_⟩
    rw [← h, hresult]
    exact (create_of_error herror).2
  | known herror hknown =>
    rw [(create_of_known herror hknown).2] at h
    cases h
  | endless herror hnew hends =>
    obtain ⟨hprogram, hresult⟩ := create_of_endless herror hnew hends
    refine ⟨hprogram, ?_⟩
    rw [← h, hresult]
    exact (create_of_endless (p := p.withDiagnostics d) herror hnew hends).2
  | refused herror hnew hends hb =>
    obtain ⟨hprogram, hresult⟩ := create_of_refused herror hnew hends hb
    refine ⟨hprogram, ?_⟩
    rw [← h, hresult]
    exact (create_of_refused (p := p.withDiagnostics d) herror hnew hends hb).2
  | built hbuilds =>
    rw [hbuilds.result] at h
    split at h
    · cases h
      cases hcause
    · cases h

/-- Where the check is not asked for, a package that would be found inconsistent is made. -/
theorem create_of_not_isRefusal (d : Diagnostics) (hcause : cause.isRefusal = false)
    (h : (p.create u).result = .error cause) : p.diagnostics.checkFunctions = true ∧
      ∃ pkg, (p.create u).program.package? p.nextPackage = some pkg ∧
        (p.create u).program.problems pkg ≠ [] ∧
        cause = .inconsistent u.path (Text.joinWith "\n"
          (((p.create u).program.problems pkg).map Problem.message)) ∧
        (d.checkFunctions = false →
          ((p.withDiagnostics d).create u).result = .ok p.nextPackage) := by
  cases p.way u with
  | faulty herror =>
    rw [(create_of_error herror).2] at h
    cases h
    cases hcause
  | known herror hknown =>
    rw [(create_of_known herror hknown).2] at h
    cases h
  | endless herror hnew hends =>
    rw [(create_of_endless herror hnew hends).2] at h
    cases h
    cases hcause
  | refused herror hnew hends hb =>
    rw [(create_of_refused herror hnew hends hb).2] at h
    cases h
    rw [Violation.isRefusal_of_isOfItem (Draft.isOfItem_of_build hb)] at hcause
    cases hcause
  | @built draft hbuilds =>
    rw [hbuilds.result] at h
    split at h
    · rename_i hfound
      cases h
      refine ⟨hfound.1, draft.finish, hbuilds.package?, hfound.2, rfl, fun hquiet => ?_⟩
      rw [(hbuilds.withDiagnostics d).result, if_neg]
      · rfl
      · rintro ⟨hcheck, -⟩
        rw [withDiagnostics, hquiet] at hcheck
        cases hcheck
    · cases h

/-- Programs that differ in their diagnostics come out of making a package differing in these only.
A refused unit leaves the program as it was. If the package is found inconsistent, then it is there
as it would be without the check. -/
theorem create_up_to_diagnostics (p : Program) (u : SourceUnit) (d d' : Diagnostics) :
    let made := (p.withDiagnostics d).create u
    let made' := (p.withDiagnostics d').create u
    made'.program = made.program.withDiagnostics d' ∧
    (∀ cause, cause.isRefusal = true → made.result = .error cause →
      made.program = p.withDiagnostics d ∧ made'.result = .error cause) ∧
    ∀ cause, cause.isRefusal = false → made.result = .error cause → d.checkFunctions = true ∧
      ∃ pkg, made.program.package? p.nextPackage = some pkg ∧ made.program.problems pkg ≠ [] ∧
        cause = .inconsistent u.path (Text.joinWith "\n"
          ((made.program.problems pkg).map Problem.message)) ∧
        (d'.checkFunctions = false → made'.result = .ok p.nextPackage) := by
  intro made made'
  refine ⟨?_, fun cause hcause h => ?_, fun cause hcause h => ?_⟩
  · exact create_program_withDiagnostics (p.withDiagnostics d) u d'
  · exact create_of_isRefusal d' hcause h
  · exact create_of_not_isRefusal d' hcause h

end Program

/-- A unit with a function that has two parameters of the same name. -/
def SourceUnit.repeating : SourceUnit where
  path := "m"
  name := "m"
  importable := true
  error := none
  objects := [.func "f" none ⟨none, [⟨"x", .basic .int⟩, ⟨"x", .basic .bool⟩], [], false⟩]
  scopes := [⟨{}, .ofList [("f", ⟨0⟩)], []⟩]
  files := [⟨"f.go", [.func ⟨⟨"f", some ⟨0⟩, none⟩, none, [], none, none, {}⟩]⟩]

/-- A unit that declares the same function and then one that is not resolved. -/
def SourceUnit.halting : SourceUnit :=
  { repeating with
    files := repeating.files ++ [⟨"g.go", [.func ⟨⟨"g", none, none⟩, none, [], none, none, {}⟩]⟩] }

namespace Program

theorem create_up_to_diagnostics_repeating :
    let p : Program := {}
    let strict : Diagnostics := { checkFunctions := true }
    let made := (p.withDiagnostics strict).create .repeating
    let made' := (p.withDiagnostics {}).create .repeating
    let halted := (p.withDiagnostics strict).create .halting
    (made.result = .error (.inconsistent "m" "m.f: duplicate parameter x") ∧
      made'.result = .ok ⟨0⟩ ∧ made'.program = made.program.withDiagnostics {} ∧
      made'.program.packages.length = 1) ∧
    halted.result = .error (.unresolved "g") ∧ halted.program = p.withDiagnostics strict := by
  intro p strict made made' halted
  have hmade : made.result = .error (.inconsistent "m" "m.f: duplicate parameter x") := by
    decide +kernel
  have hhalted : halted.result = .error (.unresolved "g") := rfl
  obtain ⟨hprogram, -, hinconsistent⟩ := create_up_to_diagnostics p .repeating strict {}
  obtain ⟨-, pkg, -, -, -, hquiet⟩ := hinconsistent _ rfl hmade
  obtain ⟨-, hrefused, -⟩ := create_up_to_diagnostics p .halting strict {}
  exact ⟨⟨hmade, hquiet rfl, hprogram, rfl⟩, hhalted, (hrefused _ rfl hhalted).1⟩

end Program

end TraceDebugger
