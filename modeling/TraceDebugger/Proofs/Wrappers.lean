import TraceDebugger.Proofs.PackageSteps

/-!
# Functions that wrap methods

For a method a program keeps two functions that it has made of it on request, one that closes over
the receiver and one that takes it as a parameter. Whatever happens afterwards, a kept id leads to
the function that was made of the method (`Program.Caches`), and a request for a method is answered
(`Program.exists_boundWrapper?`, `Program.exists_interfaceWrapper?`).
-/

namespace TraceDebugger.Program

variable {p q : Program} {key : ObjectKey} {id : FunctionId} {name : String}
  {signature : Signature} {recv : Var}

/-- The ids of a table lead to the functions that were made of the methods under which they are
kept. -/
def Caches (p : Program) (t : Table ObjectKey FunctionId)
    (make : ObjectKey → String → Signature → Var → Function) : Prop :=
  ∀ key id, t.find? key = some id → ∃ name signature recv f,
    p.method? key = some (name, signature, recv) ∧ p.function? id = some f ∧
      (make key name signature recv).Continues f

theorem Change.method? (h : Change p q) (hm : p.method? key = some (name, signature, recv)) :
    q.method? key = some (name, signature, recv) := by
  obtain ⟨pkg, pos, hpkg, hobject, hrecv⟩ := method?_eq_some.1 hm
  obtain ⟨pkg', hpkg', hgrows⟩ := h.grows hpkg
  refine method?_eq_some.2 ⟨pkg', pos, hpkg', ?_, hrecv⟩
  rw [hgrows.rest]
  exact hobject

theorem Change.function? (h : Change p q) {f : Function} (hf : p.function? id = some f) :
    ∃ f', q.function? id = some f' ∧ f.Continues f' := by
  obtain ⟨pkg, hpkg, hf⟩ := Option.bind_eq_some_iff.1 hf
  obtain ⟨hhome, hf⟩ := Option.ite_none_right_eq_some.1 hf
  obtain ⟨pkg', hpkg', hgrows⟩ := h.grows hpkg
  exact function?_of_grows q hpkg' hhome hgrows hf

variable {t : Table ObjectKey FunctionId}
  {make : ObjectKey → String → Signature → Var → Function}

theorem Caches.change (h : p.Caches t make) (hc : Change p q) : q.Caches t make := by
  intro key id hfind
  obtain ⟨name, signature, recv, f, hmethod, hf, hcontinues⟩ := h key id hfind
  obtain ⟨f', hf', hcontinues'⟩ := hc.function? hf
  exact ⟨name, signature, recv, f', hc.method? hmethod, hf', hcontinues.trans hcontinues'⟩

theorem Caches.insert (h : p.Caches t make) {f : Function}
    (hmethod : p.method? key = some (name, signature, recv)) (hf : p.function? id = some f)
    (hmade : (make key name signature recv).Continues f) : p.Caches (t.insert key id) make := by
  intro key' id' hfind
  rw [Table.find?_insert_eq] at hfind
  split at hfind
  · rename_i heq
    cases hfind
    rw [heq]
    exact ⟨name, signature, recv, f, hmethod, hf, hmade⟩
  · exact h key' id' hfind

theorem package?_addFunction {pid : PackageId} {pkg : Package} (hpkg : p.package? pid = some pkg)
    (f : Function) : (p.addFunction pid f).package? pid = some (pkg.addFunction f) := by
  unfold Program.addFunction
  rw [package?_modifyPackage, if_pos rfl, hpkg]
  rfl

theorem Intact.function?_addFunction (h : p.Intact) {pid : PackageId} {pkg : Package}
    (hpkg : p.package? pid = some pkg) (f : Function) :
    (p.addFunction pid f).function? pkg.nextFunction = some f := by
  have hid : pkg.nextFunction.package = pid := h.number pid pkg hpkg
  unfold Program.function?
  rw [hid, package?_addFunction hpkg]
  unfold Package.function? Package.addFunction Package.nextFunction
  simp

/-- The wrappers that a program keeps are made of methods. -/
structure Wrapped (p : Program) : Prop where
  bound : p.Caches p.boundWrappers boundWrapperOf
  interface : p.Caches p.interfaceWrappers interfaceWrapperOf

theorem Wrapped.change (h : p.Wrapped) (hintact : p.Intact) (hc : Change p q) : q.Wrapped := by
  have hbound := h.bound.change hc
  have hinterface := h.interface.change hc
  have hmethods : ∀ key name signature recv, p.method? key = some (name, signature, recv) →
      q.method? key = some (name, signature, recv) := fun _ _ _ _ hm => hc.method? hm
  cases hc with
  | package _ _ _ => exact ⟨hbound, hinterface⟩
  | anonymous _ _ => exact ⟨hbound, hinterface⟩
  | blocks _ => exact ⟨hbound, hinterface⟩
  | @boundWrapper key name signature recv pkg _ method home =>
    have hf := hintact.function?_addFunction home (boundWrapperOf key name signature recv)
    exact ⟨hbound.insert (hmethods _ _ _ _ method) hf ⟨_, _, rfl⟩, hinterface⟩
  | @interfaceWrapper key name signature recv pkg _ method home =>
    have hf := hintact.function?_addFunction home (interfaceWrapperOf key name signature recv)
    exact ⟨hbound, hinterface.insert (hmethods _ _ _ _ method) hf ⟨_, _, rfl⟩⟩

theorem Reachable.wrapped (h : p.Reachable) : p.Wrapped := by
  -- that the id of a new wrapper leads to it rests on the packages having their own numbers
  have hboth : p.Intact ∧ p.Wrapped := by
    refine h.induction (P := fun p => p.Intact ∧ p.Wrapped) (fun d => ⟨intact_empty d, ?_⟩)
      fun p q hp hc => ⟨hp.1.change hc, hp.2.change hp.1 hc⟩
    exact ⟨fun _ _ hfind => (nomatch hfind), fun _ _ hfind => (nomatch hfind)⟩
  exact hboth.2

/-! ## Requests -/

theorem exists_boundWrapper? (h : p.method? key = some (name, signature, recv)) :
    ∃ q id, p.boundWrapper? key = some (q, id) := by
  obtain ⟨pkg, -, hpkg, -⟩ := method?_eq_some.1 h
  unfold boundWrapper?
  cases p.boundWrappers.find? key with
  | some id => exact ⟨p, id, rfl⟩
  | none =>
    rw [h, hpkg]
    exact ⟨_, _, rfl⟩

theorem exists_interfaceWrapper? (h : p.method? key = some (name, signature, recv)) :
    ∃ q id, p.interfaceWrapper? key = some (q, id) := by
  obtain ⟨pkg, -, hpkg, -⟩ := method?_eq_some.1 h
  unfold interfaceWrapper?
  cases p.interfaceWrappers.find? key with
  | some id => exact ⟨p, id, rfl⟩
  | none =>
    rw [h, hpkg]
    exact ⟨_, _, rfl⟩

end TraceDebugger.Program
