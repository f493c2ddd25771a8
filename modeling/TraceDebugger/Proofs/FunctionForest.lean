import TraceDebugger.Proofs.Closures

/-!
# Functions inside functions as a forest

A function without a name holds the id of the function around it, and that one lists the functions
inside it. Two functions are linked by one operation only, and it writes both links
(`Package.Step.anonymous_cases`), so each link has its mirror image (`Package.Mirrored`,
`Package.Nests`). Links go to functions that are older (`Program.Inside.index_lt`), so they lead from
each function out to one that is inside no other (`Program.functions_forest`).
-/

namespace TraceDebugger

open Relation

/-! ## The two links of a package -/

namespace Package

variable {pkg pkg' : Package} {e : FunctionId} {g g' : Function}

/-- No function of a finished package is inside another. -/
theorem Finished.not_mentions (h : pkg.Finished) (id : FunctionId) :
    ∀ f ∈ pkg.functions, ¬ f.Mentions id :=
  h.forall_functions (fun _ hm => hm.elim nofun nofun)
    (fun f source vars hf hm => hf ((f.refers_adopt_addLocals source vars).2 id hm))
    fun p object source name pos signature =>
      Draft.not_mentions_builtFunction p object source name pos signature id

/-- The functions that the function `g` of the id `e` lists are inside it, and each is listed
once. -/
structure Lists (pkg : Package) (e : FunctionId) (g : Function) : Prop where
  inside : ∀ id ∈ g.anonymous, ∃ f, pkg.function? id = some f ∧ f.enclosing = some e
  once : g.anonymous.Nodup

/-- What any function lists is inside it. -/
def Mirrored (pkg : Package) : Prop := ∀ e g, pkg.function? e = some g → pkg.Lists e g

theorem lists_of_nil (h : g.anonymous = []) : pkg.Lists e g := by
  refine ⟨fun id hid => ?_, ?_⟩
  · rw [h] at hid
    cases hid
  · rw [h]
    exact List.nodup_nil

/-- What a step does to the functions that one function lists: the function is new and lists none,
or it lists what it listed before, or the next function of the package, which is inside it, comes
last. -/
theorem Step.anonymous_cases (hs : pkg.Step pkg') (hg : pkg'.function? e = some g') :
    g'.anonymous = [] ∨ ∃ g, pkg.function? e = some g ∧
      (g'.anonymous = g.anonymous ∨ g'.anonymous = g.anonymous ++ [pkg.nextFunction] ∧
        ∃ f, pkg'.function? pkg.nextFunction = some f ∧ f.enclosing = some e) := by
  cases hs with
  | stays => exact .inr ⟨g', hg, .inl rfl⟩
  | @wrapper _ _ _ _ _ f _ _ wraps =>
    rcases (function?_append (p := pkg) (q := pkg.addFunction f) rfl rfl).1 hg with
      hold | ⟨-, rfl⟩
    · exact .inr ⟨g', hold, .inl rfl⟩
    · rcases wraps with rfl | rfl
      · exact .inl rfl
      · exact .inl rfl
  | @anonymous enclosing parent signature freeVars inside =>
    obtain ⟨hlast, -⟩ := insideAt_withAnonymous inside signature freeVars
    rw [function?_withAnonymous] at hg
    obtain ⟨g, hfound, rfl⟩ := Option.map_eq_some_iff.1 hg
    rcases (function?_append (p := pkg)
        (q := pkg.addFunction (Program.anonymousIn pkg enclosing parent signature freeVars))
        rfl rfl).1 hfound with hold | ⟨rfl, rfl⟩
    · refine .inr ⟨g, hold, ?_⟩
      by_cases he : e = enclosing
      · rw [if_pos he]
        exact .inr ⟨rfl, _, hlast, congrArg some he.symm⟩
      · rw [if_neg he]
        exact .inl rfl
    · rw [if_neg (ne_nextFunction inside).symm]
      exact .inl rfl
  | blocks target blocks =>
    rw [function?_modifyFunction] at hg
    by_cases he : e = target
    · rw [if_pos he] at hg
      obtain ⟨g, hold, rfl⟩ := Option.map_eq_some_iff.1 hg
      exact .inr ⟨g, hold, .inl rfl⟩
    · rw [if_neg he] at hg
      exact .inr ⟨g', hg, .inl rfl⟩

/-- A list stays right in a later package as long as it is the same. -/
theorem Lists.mono (h : pkg.Lists e g) (hgrows : pkg.Grows pkg')
    (hsame : g'.anonymous = g.anonymous) : pkg'.Lists e g' := by
  refine ⟨fun id hid => ?_, hsame ▸ h.once⟩
  rw [hsame] at hid
  obtain ⟨f, hf, he⟩ := h.inside id hid
  obtain ⟨f', hf', anonymous, blocks, rfl⟩ := hgrows.function? hf
  exact ⟨_, hf', he⟩

/-- The next function is listed nowhere, so it can come last in a list. -/
theorem Lists.concat (h : pkg.Lists e g) (hgrows : pkg.Grows pkg')
    (hadded : g'.anonymous = g.anonymous ++ [pkg.nextFunction])
    (hnew : ∃ f, pkg'.function? pkg.nextFunction = some f ∧ f.enclosing = some e) :
    pkg'.Lists e g' := by
  refine ⟨fun id hid => ?_, ?_⟩
  · rw [hadded] at hid
    rcases List.mem_append.1 hid with hold | hlast
    · exact (h.mono hgrows rfl).inside id hold
    · rw [List.mem_singleton.1 hlast]
      exact hnew
  · have hfresh : pkg.nextFunction ∉ g.anonymous := by
      intro hmem
      obtain ⟨f, hf, -⟩ := h.inside _ hmem
      exact ne_nextFunction hf rfl
    rw [hadded, ← List.concat_eq_append]
    exact h.once.concat hfresh

theorem Mirrored.step (h : pkg.Mirrored) (hs : pkg.Step pkg') : pkg'.Mirrored := by
  intro e g' hg'
  rcases hs.anonymous_cases hg' with hnone | ⟨g, hg, hsame | ⟨hadded, hnew⟩⟩
  · exact lists_of_nil hnone
  · exact (h e g hg).mono hs.grows hsame
  · exact (h e g hg).concat hs.grows hadded hnew

theorem Finished.mirrored (h : pkg.Finished) : pkg.Mirrored := by
  intro e g hg
  refine lists_of_nil (List.eq_nil_iff_forall_not_mem.2 fun id hid => ?_)
  exact h.not_mentions id g (mem_of_function? hg) (.inr hid)

end Package

/-! ## The functions of a program -/

namespace Program

variable {p : Program} {pkg : Package} {i j : FunctionId} {f g : Function}

theorem Reachable.mirrored (h : p.Reachable) (hmem : pkg ∈ p.packages) : pkg.Mirrored :=
  h.package_induction (fun _ hf => hf.mirrored) (fun _ _ hp hs => hp.step hs) pkg hmem

/-- The function of the id `i` is inside that of the id `j`. -/
def Inside (p : Program) (i j : FunctionId) : Prop :=
  ∃ f, p.function? i = some f ∧ f.enclosing = some j

theorem Reachable.enclosing_iff (h : p.Reachable) (hf : p.function? i = some f)
    (hg : p.function? j = some g) : f.enclosing = some j ↔ i ∈ g.anonymous := by
  constructor
  · intro he
    obtain ⟨pkg, parent, k, -, hparent, hin⟩ := h.insideAt hf he
    rw [hg, Option.some.injEq] at hparent
    subst hparent
    exact List.mem_of_getElem? hin.listed
  · intro hlisted
    obtain ⟨pkg, hpkg, hg⟩ := Option.bind_eq_some_iff.1 hg
    obtain ⟨f', hf', he⟩ := (h.mirrored (package?_mem hpkg) j g hg).inside i hlisted
    have hsame := h.intact.function?_of_package? hpkg hf'
    rw [hf, Option.some.injEq] at hsame
    rwa [hsame]

/-- A function inside another is listed there once, and has its scope and its place from there. -/
theorem Reachable.placed (h : p.Reachable) (hf : p.function? i = some f)
    (hg : p.function? j = some g) (he : f.enclosing = some j) :
    g.anonymous.count i = 1 ∧ i.package = j.package ∧ j.index < i.index ∧ f.scope = g.scope ∧
      f.name = s!"{g.name}${g.anonymous.idxOf i + 1}" := by
  obtain ⟨pkg, parent, k, hpkg, hparent, hin⟩ := h.insideAt hf he
  rw [hg, Option.some.injEq] at hparent
  subst hparent
  have honce := (h.mirrored (package?_mem hpkg) j g hin.around).once
  obtain ⟨hlt, hk⟩ := List.getElem?_eq_some_iff.1 hin.listed
  have hplace : g.anonymous.idxOf i = k := by
    rw [← hk]
    exact honce.idxOf_getElem k hlt
  have hhome : j.package = pkg.id := (Option.ite_none_right_eq_some.1 hin.around).1
  refine ⟨List.count_eq_one_of_mem honce (List.mem_of_getElem? hin.listed), ?_, hin.after,
    hin.scope, ?_⟩
  · rw [hhome, h.intact.number _ _ hpkg]
  · rw [hplace]
    exact hin.named

/-! ## Chains -/

theorem Inside.index_lt (hin : p.Inside i j) (h : p.Reachable) : j.index < i.index := by
  obtain ⟨f, hf, he⟩ := hin
  obtain ⟨pkg, parent, k, -, -, hplace⟩ := h.insideAt hf he
  exact hplace.after

/-- A chain of functions, each inside the next, is not longer than the number of the first. -/
theorem Reachable.length_chain_le (h : p.Reachable) {chain : List FunctionId}
    (hchain : (i :: chain).IsChain p.Inside) : chain.length ≤ i.index := by
  induction chain generalizing i with
  | nil => exact Nat.zero_le _
  | cons j rest ih =>
    obtain ⟨hin, hrest⟩ := List.isChain_cons_cons.1 hchain
    have hlt := hin.index_lt h
    have hle := ih hrest
    rw [List.length_cons]
    omega

/-- Each function leads out to one that is inside no other. -/
theorem Reachable.exists_root (h : p.Reachable) (hf : p.function? i = some f) :
    ∃ r root, ReflTransGen p.Inside i r ∧ p.function? r = some root ∧ root.enclosing = none := by
  -- by strong induction on the number, which is smaller for the function around
  induction hindex : i.index using Nat.strong_induction_on generalizing i f with
  | _ n ih =>
    cases he : f.enclosing with
    | none => exact ⟨i, f, .refl, hf, he⟩
    | some j =>
      have hin : p.Inside i j := ⟨f, hf, he⟩
      obtain ⟨pkg, g, k, -, hg, -⟩ := h.insideAt hf he
      obtain ⟨r, root, hleads, hroot⟩ := ih j.index (hindex ▸ hin.index_lt h) hg rfl
      exact ⟨r, root, hleads.head hin, hroot⟩

/-! ## Refusals -/

/-- A function is added inside another exactly if the package has the other one. -/
theorem addAnonymous?_eq_none_iff {package : PackageId} (hpkg : p.package? package = some pkg)
    (enclosing : FunctionId) (signature : Signature) (freeVars : List Var) :
    p.addAnonymous? package enclosing signature freeVars = none ↔
      pkg.function? enclosing = none := by
  unfold addAnonymous?
  rw [hpkg, Option.bind_eq_bind, Option.bind_some]
  cases hparent : pkg.function? enclosing with
  | none => exact iff_of_true rfl rfl
  | some parent => exact iff_of_false nofun nofun

/-- The functions of any program that operations make are a forest. A function holds the id of
another exactly if that one lists it, and then it does so once, both are in one package, and the one
inside is newer, has the scope of the other and is named for it and for its own place in the list.
So all chains of functions, each inside the next, are finite, and those that go on as far as they can
end in a function that is inside no other. Inside a function that is not there nothing can be
added. -/
theorem functions_forest (diagnostics : Diagnostics) (operations : List Operation) :
    let p := built diagnostics operations
    (∀ i j f g, p.function? i = some f → p.function? j = some g →
      (f.enclosing = some j ↔ i ∈ g.anonymous) ∧
      (f.enclosing = some j → g.anonymous.count i = 1 ∧ i.package = j.package ∧
        j.index < i.index ∧ f.scope = g.scope ∧
        f.name = s!"{g.name}${g.anonymous.idxOf i + 1}")) ∧
    (∀ (i : FunctionId) (chain : List FunctionId), (i :: chain).IsChain p.Inside →
      chain.length ≤ i.index) ∧
    (∀ i f, p.function? i = some f → ∃ r root, ReflTransGen p.Inside i r ∧
      p.function? r = some root ∧ root.enclosing = none) ∧
    ∀ package pkg enclosing signature freeVars, p.package? package = some pkg →
      pkg.function? enclosing = none →
      p.addAnonymous? package enclosing signature freeVars = none ∧
        p.apply (.addAnonymous package enclosing signature freeVars) = p := by
  intro p
  have h : p.Reachable := ⟨diagnostics, operations, rfl⟩
  refine ⟨fun i j f g hf hg => ⟨h.enclosing_iff hf hg, h.placed hf hg⟩,
    fun i chain hchain => h.length_chain_le hchain, fun i f hf => h.exists_root hf, ?_⟩
  intro package pkg enclosing signature freeVars hpkg hnone
  have hrefused := (addAnonymous?_eq_none_iff hpkg enclosing signature freeVars).2 hnone
  refine ⟨hrefused, ?_⟩
  simp only [apply, hrefused, Option.elim_none]

/-- One more function, inside the first function that is inside the first method. -/
def nestedTwice : List Operation :=
  insideNamesakes ++ [.addAnonymous ⟨0⟩ ⟨⟨0⟩, 4⟩ ⟨none, [], [], false⟩ []]

theorem functions_forest_nestedTwice :
    let p := built {} nestedTwice
    ∃ f g, p.function? ⟨⟨0⟩, 7⟩ = some f ∧ p.function? ⟨⟨0⟩, 4⟩ = some g ∧
      f.enclosing = some ⟨⟨0⟩, 4⟩ ∧ ⟨⟨0⟩, 7⟩ ∈ g.anonymous ∧ f.name = "f$1$1" ∧ f.scope = g.scope ∧
      p.addAnonymous? ⟨0⟩ ⟨⟨0⟩, 8⟩ ⟨none, [], [], false⟩ [] = none := by
  intro p
  obtain ⟨f, g, hf, hg, he, hname⟩ : ∃ f g, p.function? ⟨⟨0⟩, 7⟩ = some f ∧
      p.function? ⟨⟨0⟩, 4⟩ = some g ∧ f.enclosing = some ⟨⟨0⟩, 4⟩ ∧ f.name = "f$1$1" :=
    ⟨_, _, rfl, rfl, rfl, by decide⟩
  obtain ⟨hlinks, -, -, hrefused⟩ := functions_forest {} nestedTwice
  obtain ⟨hiff, hplaced⟩ := hlinks _ _ f g hf hg
  obtain ⟨-, -, -, hscope, -⟩ := hplaced he
  obtain ⟨hnone, -⟩ := hrefused ⟨0⟩ _ ⟨⟨0⟩, 8⟩ ⟨none, [], [], false⟩ [] rfl rfl
  exact ⟨f, g, hf, hg, he, hiff.1 he, hname, hscope, hnone⟩

end Program

end TraceDebugger
