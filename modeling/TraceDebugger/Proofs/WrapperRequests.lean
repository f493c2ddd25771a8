import Mathlib.Data.List.Induction
import TraceDebugger.Proofs.CreationWays
import TraceDebugger.Proofs.Wrappers

/-!
# Requests for wrappers of methods

The two kinds of wrappers (`WrapperKind`) are asked for in the same way: the id that a table keeps
for the method is the answer, or else a function is added and its id is kept. Nothing else changes
the tables (`Program.apply_kept_cases`), and a new id is that of no function that is there. So the
requests of one kind for one method have one answer, and all others have other answers
(`Program.requests_answered`).
-/

namespace TraceDebugger

/-- What a function that is made of a method on request does with the receiver. -/
inductive WrapperKind where
  /-- The function closes over the receiver. -/
  | bound
  /-- The function takes the receiver as its first parameter. -/
  | interface
  deriving DecidableEq

namespace WrapperKind

/-- The request for the function of this kind for a method. -/
def operation : WrapperKind → ObjectKey → Operation
  | bound, key => .boundWrapper key
  | interface, key => .interfaceWrapper key

/-- The function of this kind that is made of a method. -/
def make : WrapperKind → ObjectKey → String → Signature → Var → Function
  | bound => Program.boundWrapperOf
  | interface => Program.interfaceWrapperOf

/-- The parameters of the function of this kind, for a method of a signature and receiver. -/
def params : WrapperKind → Signature → Var → List Var
  | bound, signature, _ => signature.params
  | interface, signature, recv => ⟨"recv", recv.type⟩ :: signature.params

/-- The variables that the function of this kind closes over. -/
def freeVars : WrapperKind → Var → List Var
  | bound, recv => [recv]
  | interface, _ => []

/-- A function of this kind is made of a method of a signature and receiver. -/
structure Wraps (kind : WrapperKind) (signature : Signature) (recv : Var) (f : Function) :
    Prop where
  receiver : f.receiver? = none
  params : f.params = kind.params signature recv
  freeVars : f.freeVars = kind.freeVars recv
  results : f.signature.results = signature.results
  variadic : f.signature.variadic = signature.variadic

theorem wraps_of_continues {kind : WrapperKind} {key : ObjectKey} {name : String}
    {signature : Signature} {recv : Var} {f : Function}
    (h : (kind.make key name signature recv).Continues f) : kind.Wraps signature recv f := by
  obtain ⟨anonymous, blocks, rfl⟩ := h
  cases kind with
  | bound => exact ⟨rfl, rfl, rfl, rfl, rfl⟩
  | interface => exact ⟨rfl, rfl, rfl, rfl, rfl⟩

end WrapperKind

namespace Program

/-- The answer to a request, and the program afterwards. -/
def request (p : Program) : WrapperKind → ObjectKey → Option (Program × FunctionId)
  | .bound => p.boundWrapper?
  | .interface => p.interfaceWrapper?

/-- The ids that are kept for requests of a kind. -/
def kept (p : Program) : WrapperKind → Table ObjectKey FunctionId
  | .bound => p.boundWrappers
  | .interface => p.interfaceWrappers

/-- The program with one more id kept. -/
def keep (p : Program) (kind : WrapperKind) (key : ObjectKey) (id : FunctionId) : Program :=
  match kind with
  | .bound => { p with boundWrappers := p.boundWrappers.insert key id }
  | .interface => { p with interfaceWrappers := p.interfaceWrappers.insert key id }

variable {p q r : Program} {kind kind' : WrapperKind} {key key' : ObjectKey} {id id' : FunctionId}

theorem find?_kept_keep (p : Program) (kind kind' : WrapperKind) (key key' : ObjectKey)
    (id : FunctionId) : ((p.keep kind key id).kept kind').find? key' =
      if kind' = kind ∧ key' = key then some id else (p.kept kind').find? key' := by
  have hinsert : ∀ t : Table ObjectKey FunctionId, (t.insert key id).find? key' =
      if key' = key then some id else t.find? key' := fun t => t.find?_insert_eq key key' id
  cases kind <;> cases kind' <;> simp [keep, kept, hinsert]

theorem package?_keep (p : Program) (kind : WrapperKind) (key : ObjectKey) (id : FunctionId) :
    (p.keep kind key id).package? = p.package? := by
  cases kind <;> rfl

/-- A request finds the id that is kept, or adds the function of a method and keeps its id. -/
theorem request_eq_some (h : p.request kind key = some (q, id)) :
    (q = p ∧ (p.kept kind).find? key = some id) ∨
      ((p.kept kind).find? key = none ∧ ∃ name signature recv pkg,
        p.method? key = some (name, signature, recv) ∧ p.package? key.package = some pkg ∧
        id = pkg.nextFunction ∧
        q = (p.addFunction key.package (kind.make key name signature recv)).keep kind key id) := by
  cases kind with
  | bound =>
    rcases boundWrapper?_eq_some h with hkept | ⟨hnew, name, signature, recv, pkg, hm, hpkg, rfl, hq⟩
    · exact .inl hkept
    · exact .inr ⟨hnew, name, signature, recv, pkg, hm, hpkg, rfl, hq⟩
  | interface =>
    rcases interfaceWrapper?_eq_some h with
      hkept | ⟨hnew, name, signature, recv, pkg, hm, hpkg, rfl, hq⟩
    · exact .inl hkept
    · exact .inr ⟨hnew, name, signature, recv, pkg, hm, hpkg, rfl, hq⟩

theorem request_of_kept (h : (p.kept kind).find? key = some id) :
    p.request kind key = some (p, id) := by
  cases kind with
  | bound =>
    change p.boundWrapper? key = _
    have hfind : p.boundWrappers.find? key = some id := h
    simp only [boundWrapper?, hfind]
  | interface =>
    change p.interfaceWrapper? key = _
    have hfind : p.interfaceWrappers.find? key = some id := h
    simp only [interfaceWrapper?, hfind]

/-- After a request its answer is kept, and for other requests what was kept before. -/
theorem find?_kept_after (h : p.request kind' key' = some (q, id')) (kind : WrapperKind)
    (key : ObjectKey) : (q.kept kind).find? key =
      if kind = kind' ∧ key = key' then some id' else (p.kept kind).find? key := by
  rcases request_eq_some h with ⟨rfl, hfind⟩ | ⟨-, name, signature, recv, pkg, -, -, -, rfl⟩
  · by_cases hsame : kind = kind' ∧ key = key'
    · obtain ⟨rfl, rfl⟩ := hsame
      rw [if_pos ⟨rfl, rfl⟩]
      exact hfind
    · rw [if_neg hsame]
  · rw [find?_kept_keep]
    cases kind <;> rfl

theorem find?_kept_of_request (h : p.request kind key = some (q, id)) :
    (q.kept kind).find? key = some id := by
  rw [find?_kept_after h, if_pos ⟨rfl, rfl⟩]

theorem apply_of_request (h : p.request kind key = some (q, id)) :
    p.apply (kind.operation key) = q := by
  cases kind with
  | bound =>
    change (p.boundWrapper? key).elim p (·.1) = q
    have hrequest : p.boundWrapper? key = some (q, id) := h
    rw [hrequest]
    rfl
  | interface =>
    change (p.interfaceWrapper? key).elim p (·.1) = q
    have hrequest : p.interfaceWrapper? key = some (q, id) := h
    rw [hrequest]
    rfl

theorem apply_of_request_none (h : p.request kind key = none) :
    p.apply (kind.operation key) = p := by
  cases kind with
  | bound =>
    change (p.boundWrapper? key).elim p (·.1) = p
    have hrequest : p.boundWrapper? key = none := h
    rw [hrequest]
    rfl
  | interface =>
    change (p.interfaceWrapper? key).elim p (·.1) = p
    have hrequest : p.interfaceWrapper? key = none := h
    rw [hrequest]
    rfl

/-- The ids that are kept lead to functions that were made of methods. -/
theorem Wrapped.caches (h : p.Wrapped) (kind : WrapperKind) : p.Caches (p.kept kind) kind.make := by
  cases kind with
  | bound => exact h.bound
  | interface => exact h.interface

theorem Intact.answers_of_kept (h : p.Intact) (hfind : (p.kept kind).find? key = some id) :
    p.Answers key id := by
  cases kind with
  | bound => exact h.boundWrappers key id hfind
  | interface => exact h.interfaceWrappers key id hfind

/-- A request is answered if the key is that of a method. -/
theorem Reachable.isSome_request_iff (h : p.Reachable) :
    (p.request kind key).isSome ↔ (p.method? key).isSome := by
  rw [Option.isSome_iff_exists, Option.isSome_iff_exists]
  constructor
  · rintro ⟨⟨q, id⟩, hq⟩
    rcases request_eq_some hq with ⟨-, hfind⟩ | ⟨-, name, signature, recv, pkg, hm, -, -, -⟩
    · obtain ⟨name, signature, recv, f, hm, -, -⟩ := h.wrapped.caches kind key id hfind
      exact ⟨_, hm⟩
    · exact ⟨_, hm⟩
  · rintro ⟨⟨name, signature, recv⟩, hm⟩
    cases kind with
    | bound =>
      obtain ⟨q, id, hq⟩ := exists_boundWrapper? hm
      exact ⟨_, hq⟩
    | interface =>
      obtain ⟨q, id, hq⟩ := exists_interfaceWrapper? hm
      exact ⟨_, hq⟩

/-! ## The tables along a run -/

theorem create_kept (p : Program) (u : SourceUnit) : (p.create u).program.kept = p.kept := by
  rcases p.create_program_cases u with hkept | ⟨draft, hbuilds⟩
  · rw [hkept]
  · rw [hbuilds.program]
    funext kind
    cases kind <;> rfl

theorem createAll_kept (p : Program) (units : List SourceUnit) :
    (p.createAll units).program.kept = p.kept :=
  createFrom_invariant (P := fun q => q.kept = p.kept)
    (fun q u hq => (create_kept q u).trans hq) units p [] [] [] rfl

/-- An operation leaves the tables alone, or it is a request that keeps a new id. -/
theorem apply_kept_cases (p : Program) (operation : Operation) :
    (p.apply operation).kept = p.kept ∨ ∃ kind key id, operation = kind.operation key ∧
      (p.kept kind).find? key = none ∧ p.request kind key = some (p.apply operation, id) := by
  have hrequest : ∀ (kind : WrapperKind) (key : ObjectKey),
      (p.apply (kind.operation key)).kept = p.kept ∨
        ∃ id, (p.kept kind).find? key = none ∧
          p.request kind key = some (p.apply (kind.operation key), id) := by
    intro kind key
    cases h : p.request kind key with
    | none => rw [apply_of_request_none h]; exact .inl rfl
    | some answer =>
      obtain ⟨q, id⟩ := answer
      rw [apply_of_request h]
      rcases request_eq_some h with ⟨rfl, -⟩ | ⟨hnew, -⟩
      · exact .inl rfl
      · exact .inr ⟨id, hnew, rfl⟩
  cases operation with
  | create u => exact .inl (create_kept p u)
  | createAll units => exact .inl (createAll_kept p units)
  | boundWrapper key =>
    rcases hrequest .bound key with hkept | ⟨id, hnew, hid⟩
    · exact .inl hkept
    · exact .inr ⟨.bound, key, id, rfl, hnew, hid⟩
  | interfaceWrapper key =>
    rcases hrequest .interface key with hkept | ⟨id, hnew, hid⟩
    · exact .inl hkept
    · exact .inr ⟨.interface, key, id, rfl, hnew, hid⟩
  | addAnonymous package enclosing signature freeVars =>
    refine .inl ?_
    simp only [apply]
    cases h : p.addAnonymous? package enclosing signature freeVars with
    | none => rfl
    | some answer =>
      obtain ⟨q, id⟩ := answer
      obtain ⟨pkg, parent, -, -, -, rfl⟩ := addAnonymous?_eq_some h
      funext kind
      cases kind <;> rfl
  | setBlocks id blocks =>
    refine .inl ?_
    simp only [apply]
    cases h : p.setBlocks? id blocks with
    | none => rfl
    | some q =>
      obtain ⟨f, -, rfl⟩ := setBlocks?_eq_some h
      funext kind
      cases kind <;> rfl

theorem find?_kept_apply (h : (p.kept kind).find? key = some id) (operation : Operation) :
    ((p.apply operation).kept kind).find? key = some id := by
  rcases p.apply_kept_cases operation with hkept | ⟨kind', key', id', -, hnew, hid'⟩
  · rw [hkept]
    exact h
  · have hother : ¬ (kind = kind' ∧ key = key') := by
      rintro ⟨rfl, rfl⟩
      rw [hnew] at h
      cases h
    rw [find?_kept_after hid', if_neg hother]
    exact h

/-- What is kept is kept for ever. -/
theorem find?_kept_run (h : (p.kept kind).find? key = some id) (operations : List Operation) :
    ((p.run operations).kept kind).find? key = some id := by
  induction operations generalizing p with
  | nil => exact h
  | cons operation rest ih => exact ih (find?_kept_apply h operation)

theorem built_append (diagnostics : Diagnostics) (operations operations' : List Operation) :
    built diagnostics (operations ++ operations') = (built diagnostics operations).run operations' :=
  List.foldl_append

/-- An earlier one of the operations is a request of this kind for this method and is answered. -/
def Requested (diagnostics : Diagnostics) (operations : List Operation) (kind : WrapperKind)
    (key : ObjectKey) : Prop :=
  ∃ before after, operations = before ++ kind.operation key :: after ∧
    ((built diagnostics before).request kind key).isSome

/-- An id is kept exactly if it was requested. -/
theorem requested_iff (diagnostics : Diagnostics) (operations : List Operation) :
    Requested diagnostics operations kind key ↔
      (((built diagnostics operations).kept kind).find? key).isSome := by
  constructor
  · rintro ⟨before, after, rfl, hsome⟩
    obtain ⟨⟨q, id⟩, hq⟩ := Option.isSome_iff_exists.1 hsome
    rw [built_append]
    change ((((built diagnostics before).apply (kind.operation key)).run after).kept kind).find? key
      |>.isSome
    rw [apply_of_request hq, find?_kept_run (find?_kept_of_request hq) after]
    rfl
  · induction operations using List.reverseRecOn with
    | nil =>
      intro hsome
      cases kind <;> cases hsome
    | append_singleton operations operation ih =>
      intro hsome
      have hlast : built diagnostics (operations ++ [operation]) =
          (built diagnostics operations).apply operation :=
        built_append diagnostics operations [operation]
      rw [hlast] at hsome
      cases hold : ((built diagnostics operations).kept kind).find? key with
      | some id =>
        obtain ⟨before, after, heq, hrequest⟩ := ih (by rw [hold]; rfl)
        refine ⟨before, after ++ [operation], ?_, hrequest⟩
        rw [heq, List.append_assoc, List.cons_append]
      | none =>
        -- the last operation has kept the id, so it is the request
        rcases (built diagnostics operations).apply_kept_cases operation with
          hkept | ⟨kind', key', id', rfl, -, hid'⟩
        · rw [hkept, hold] at hsome
          cases hsome
        · have hsame : kind = kind' ∧ key = key' := by
            by_contra hother
            rw [find?_kept_after hid', if_neg hother, hold] at hsome
            cases hsome
          obtain ⟨rfl, rfl⟩ := hsame
          refine ⟨operations, [], rfl, ?_⟩
          rw [hid']
          rfl

/-! ## One id for each kind and method -/

/-- No id is kept twice. -/
def Separate (p : Program) : Prop :=
  ∀ kind key kind' key' id, (p.kept kind).find? key = some id →
    (p.kept kind').find? key' = some id → kind = kind' ∧ key = key'

/-- The next id of a package leads to no function. -/
theorem Intact.function?_nextFunction (h : p.Intact) {package : PackageId} {pkg : Package}
    (hpkg : p.package? package = some pkg) : p.function? pkg.nextFunction = none := by
  have hhome : pkg.nextFunction.package = package := h.number package pkg hpkg
  unfold function?
  rw [hhome, hpkg, Option.bind_some]
  unfold Package.function? Package.nextFunction
  rw [if_pos rfl]
  exact List.getElem?_eq_none (Nat.le_refl _)

theorem Separate.apply (h : p.Separate) (hintact : p.Intact) (operation : Operation) :
    (p.apply operation).Separate := by
  rcases p.apply_kept_cases operation with hkept | ⟨kind₀, key₀, id₀, -, hnew, hid₀⟩
  · unfold Separate
    rw [hkept]
    exact h
  rcases request_eq_some hid₀ with ⟨heq, -⟩ | ⟨-, name, signature, recv, pkg, -, hpkg, hnext, heq⟩
  · rw [heq]
    exact h
  -- ids that were kept lead to functions, and the new one does not lead to any yet
  have hfresh : ∀ kind key, (p.kept kind).find? key ≠ some id₀ := by
    intro kind key hfind
    obtain ⟨-, f, hf⟩ := hintact.answers_of_kept hfind
    rw [hnext, hintact.function?_nextFunction hpkg] at hf
    cases hf
  intro kind key kind' key' id hid hid'
  rw [find?_kept_after hid₀] at hid hid'
  by_cases hlast : kind = kind₀ ∧ key = key₀
  · rw [if_pos hlast] at hid
    by_cases hlast' : kind' = kind₀ ∧ key' = key₀
    · exact ⟨hlast.1.trans hlast'.1.symm, hlast.2.trans hlast'.2.symm⟩
    · rw [if_neg hlast', ← hid] at hid'
      exact absurd hid' (hfresh kind' key')
  · rw [if_neg hlast] at hid
    by_cases hlast' : kind' = kind₀ ∧ key' = key₀
    · rw [if_pos hlast', Option.some.injEq] at hid'
      rw [← hid'] at hid
      exact absurd hid (hfresh kind key)
    · rw [if_neg hlast'] at hid'
      exact h kind key kind' key' id hid hid'

theorem Reachable.separate (h : p.Reachable) : p.Separate := by
  obtain ⟨diagnostics, operations, rfl⟩ := h
  induction operations using List.reverseRecOn with
  | nil =>
    intro kind key kind' key' id hid
    cases kind <;> cases hid
  | append_singleton operations operation ih =>
    have hlast : built diagnostics (operations ++ [operation]) =
        (built diagnostics operations).apply operation :=
      built_append diagnostics operations [operation]
    have hreach : (built diagnostics operations).Reachable := ⟨_, _, rfl⟩
    rw [hlast]
    exact ih.apply hreach.intact operation

theorem Reachable.run (h : p.Reachable) (operations : List Operation) :
    (p.run operations).Reachable := by
  obtain ⟨diagnostics, before, rfl⟩ := h
  exact ⟨diagnostics, before ++ operations, (built_append _ _ _).symm⟩

/-- A later request has the same answer exactly if it is of the same kind for the same method. -/
theorem Reachable.request_again_iff (h : p.Reachable) (hid : p.request kind key = some (q, id))
    (later : List Operation) (hid' : (q.run later).request kind' key' = some (r, id')) :
    id' = id ↔ kind' = kind ∧ key' = key := by
  have hq : q.Reachable := by
    rw [← apply_of_request hid]
    exact h.run [kind.operation key]
  have hr : r.Reachable := by
    rw [← apply_of_request hid']
    exact (hq.run later).run [kind'.operation key']
  have hkept : ((q.run later).kept kind).find? key = some id :=
    find?_kept_run (find?_kept_of_request hid) later
  have hkept' : (r.kept kind').find? key' = some id' := find?_kept_of_request hid'
  constructor
  · rintro rfl
    have hlast : (r.kept kind).find? key = some id' := by
      rw [← apply_of_request hid']
      exact find?_kept_apply hkept _
    exact hr.separate kind' key' kind key id' hkept' hlast
  · rintro ⟨rfl, rfl⟩
    rw [request_of_kept hkept] at hid'
    cases hid'
    rfl

/-! ## Requests and their answers -/

/-- The first answer to a request adds one function to the package of the method and none to the
others. -/
theorem length_functions_of_request (hid : p.request kind key = some (q, id))
    (hnew : (p.kept kind).find? key = none) {package : PackageId} {pkg : Package}
    (hpkg : p.package? package = some pkg) : ∃ pkg', q.package? package = some pkg' ∧
      pkg'.functions.length = pkg.functions.length + if package = key.package then 1 else 0 := by
  rcases request_eq_some hid with ⟨-, hfind⟩ | ⟨-, name, signature, recv, home, -, hhome, -, rfl⟩
  · rw [hnew] at hfind
    cases hfind
  · rw [package?_keep]
    unfold addFunction
    rw [package?_modifyPackage]
    by_cases hpackage : package = key.package
    · rw [if_pos hpackage, if_pos hpackage, hpkg]
      refine ⟨_, rfl, ?_⟩
      simp [Package.addFunction]
    · rw [if_neg hpackage, if_neg hpackage]
      exact ⟨pkg, hpkg, rfl⟩

/-- The answer to a request leads to a function that is made of the method. -/
theorem Reachable.wraps_of_request (h : p.Reachable) (hid : p.request kind key = some (q, id)) :
    ∃ pkg name pos signature recv f, q.package? key.package = some pkg ∧
      pkg.unit.object? key.object = some (.func name pos signature) ∧
      signature.recv = some recv ∧ q.function? id = some f ∧ kind.Wraps signature recv f := by
  have hq : q.Reachable := by
    rw [← apply_of_request hid]
    exact h.run [kind.operation key]
  obtain ⟨name, signature, recv, f, hm, hf, hcontinues⟩ :=
    hq.wrapped.caches kind key id (find?_kept_of_request hid)
  obtain ⟨pkg, pos, hpkg, hobject, hrecv⟩ := method?_eq_some.1 hm
  exact ⟨pkg, name, pos, signature, recv, f, hpkg, hobject, hrecv, hf,
    WrapperKind.wraps_of_continues hcontinues⟩

/-- In every program that operations make, a request for a wrapper is answered exactly for a
function object with a receiver, and else changes nothing. The first answer adds one function, made
of the method, and later ones change nothing. Whatever comes in between, two requests have the same
answer exactly if they are of one kind for one method. -/
theorem requests_answered (diagnostics : Diagnostics) (operations : List Operation)
    (kind : WrapperKind) (key : ObjectKey) :
    let p := built diagnostics operations
    ((p.request kind key).isSome ↔ ∃ pkg name pos signature,
      p.package? key.package = some pkg ∧
      pkg.unit.object? key.object = some (.func name pos signature) ∧ signature.recv.isSome) ∧
    (p.request kind key = none → p.apply (kind.operation key) = p) ∧
    ∀ q id, p.request kind key = some (q, id) → p.apply (kind.operation key) = q ∧
      (Requested diagnostics operations kind key → q = p) ∧
      (¬ Requested diagnostics operations kind key → ∀ package pkg,
        p.package? package = some pkg → ∃ pkg', q.package? package = some pkg' ∧
          pkg'.functions.length = pkg.functions.length + if package = key.package then 1 else 0) ∧
      (∃ pkg name pos signature recv f, q.package? key.package = some pkg ∧
        pkg.unit.object? key.object = some (.func name pos signature) ∧
        signature.recv = some recv ∧ q.function? id = some f ∧ kind.Wraps signature recv f) ∧
      ∀ later kind' key' r id', (q.run later).request kind' key' = some (r, id') →
        (id' = id ↔ kind' = kind ∧ key' = key) := by
  intro p
  have h : p.Reachable := ⟨diagnostics, operations, rfl⟩
  refine ⟨?_, apply_of_request_none, fun q id hid => ⟨apply_of_request hid, fun hrequested => ?_,
    fun hnew package pkg hpkg => ?_, h.wraps_of_request hid, fun later kind' key' r id' hid' => ?_⟩⟩
  · rw [h.isSome_request_iff, Option.isSome_iff_exists]
    constructor
    · rintro ⟨⟨name, signature, recv⟩, hm⟩
      obtain ⟨pkg, pos, hpkg, hobject, hrecv⟩ := method?_eq_some.1 hm
      exact ⟨pkg, name, pos, signature, hpkg, hobject, by rw [hrecv]; rfl⟩
    · rintro ⟨pkg, name, pos, signature, hpkg, hobject, hsome⟩
      obtain ⟨recv, hrecv⟩ := Option.isSome_iff_exists.1 hsome
      exact ⟨(name, signature, recv), method?_eq_some.2 ⟨pkg, pos, hpkg, hobject, hrecv⟩⟩
  · obtain ⟨kept, hkept⟩ := Option.isSome_iff_exists.1 ((requested_iff _ _).1 hrequested)
    rw [request_of_kept hkept] at hid
    cases hid
    rfl
  · have hnone : (p.kept kind).find? key = none := by
      rw [← Option.not_isSome_iff_eq_none, ← requested_iff]
      exact hnew
    exact length_functions_of_request hid hnone hpkg
  · exact h.request_again_iff hid later hid'

end Program

end TraceDebugger
