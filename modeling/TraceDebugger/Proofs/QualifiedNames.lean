import TraceDebugger.Proofs.BreakNames
import TraceDebugger.Proofs.MethodTable

/-!
# Qualified names

Names are put together with separators, and come apart again at the first or at the last separator
when one of the parts has none. The qualified name of a function is its own name after a dot, and
before the dot stands its receiver or the short name of its package. A function that a name is found
to stand for has this qualified name (`Program.Reachable.qualifiedName_of_findFunction?`).
-/

namespace TraceDebugger

/-! ## Separators -/

namespace Text

variable {sep : Char} {before before' after after' : List Char}

theorem splitChars?_eq_some {cs : List Char} (h : splitChars? sep cs = some (before, after)) :
    cs = before ++ sep :: after ∧ sep ∉ before := by
  induction cs generalizing before with
  | nil => cases h
  | cons c cs ih =>
    unfold splitChars? at h
    by_cases hc : c = sep
    · rw [if_pos hc] at h
      cases h
      simp [hc]
    · rw [if_neg hc] at h
      obtain ⟨⟨before₁, after₁⟩, hrest, heq⟩ := Option.map_eq_some_iff.1 h
      cases heq
      obtain ⟨hcs, hnone⟩ := ih hrest
      refine ⟨by rw [hcs]; rfl, ?_⟩
      intro hmem
      rcases List.mem_cons.1 hmem with heq | hmem
      · exact hc heq.symm
      · exact hnone hmem

/-- Two texts that are equal are cut at their first separators in the same way. -/
theorem append_inj_first (h : sep ∉ before) (h' : sep ∉ before')
    (heq : before ++ sep :: after = before' ++ sep :: after') :
    before = before' ∧ after = after' := by
  have hsplit := splitChars?_append h after
  rw [heq, splitChars?_append h' after'] at hsplit
  cases hsplit
  exact ⟨rfl, rfl⟩

/-- Two texts that are equal are cut at their last separators in the same way. -/
theorem append_inj_last (h : sep ∉ after) (h' : sep ∉ after')
    (heq : before ++ sep :: after = before' ++ sep :: after') :
    before = before' ∧ after = after' := by
  have hrev := congrArg List.reverse heq
  rw [List.reverse_append, List.reverse_append, List.reverse_cons, List.reverse_cons,
    List.append_assoc, List.append_assoc, List.singleton_append, List.singleton_append] at hrev
  have hsplit := append_inj_first (by simpa using h) (by simpa using h') hrev
  exact ⟨List.reverse_injective hsplit.2, List.reverse_injective hsplit.1⟩

theorem splitAt?_eq_some {s short name : String} (h : splitAt? '.' s = some (short, name)) :
    s = short ++ "." ++ name ∧ '.' ∉ short.toList := by
  obtain ⟨⟨before, after⟩, hsplit, heq⟩ := Option.map_eq_some_iff.1 h
  cases heq
  obtain ⟨hcs, hnone⟩ := splitChars?_eq_some hsplit
  constructor
  · rw [← String.toList_inj, hcs, String.toList_append, String.toList_append]
    simp
  · rwa [String.toList_ofList]

/-- Dotted texts come apart at the first dot. -/
theorem dotted_inj_first {a a' b b' : String} (h : '.' ∉ a.toList) (h' : '.' ∉ a'.toList)
    (heq : a ++ "." ++ b = a' ++ "." ++ b') : a = a' ∧ b = b' := by
  rw [← String.toList_inj, toList_dotted, toList_dotted] at heq
  obtain ⟨ha, hb⟩ := append_inj_first h h' heq
  exact ⟨String.toList_inj.1 ha, String.toList_inj.1 hb⟩

/-- Dotted texts come apart at the last dot. -/
theorem dotted_inj_last {a a' b b' : String} (h : '.' ∉ b.toList) (h' : '.' ∉ b'.toList)
    (heq : a ++ "." ++ b = a' ++ "." ++ b') : a = a' ∧ b = b' := by
  rw [← String.toList_inj, toList_dotted, toList_dotted] at heq
  obtain ⟨ha, hb⟩ := append_inj_last h h' heq
  exact ⟨String.toList_inj.1 ha, String.toList_inj.1 hb⟩

end Text

/-! ## Names of functions -/

theorem Package.mem_functionEntries_iff {pkg : Package} {id : FunctionId} {f : Function} :
    (id, f) ∈ pkg.functionEntries ↔ pkg.function? id = some f := by
  unfold functionEntries function?
  rw [List.mem_map]
  constructor
  · rintro ⟨⟨g, i⟩, hmem, heq⟩
    cases heq
    rw [if_pos rfl]
    exact List.mem_zipIdx_iff_getElem?.1 hmem
  · intro hf
    obtain ⟨hhome, hf⟩ := Option.ite_none_right_eq_some.1 hf
    refine ⟨(f, id.index), List.mem_zipIdx_iff_getElem?.2 hf, ?_⟩
    rw [← hhome]

namespace Program

variable {p : Program} {id : FunctionId} {f : Function} {pkg : Package} {recv : Var}

theorem qualifiedName_method (p : Program) (hrecv : f.receiver? = some recv) :
    p.qualifiedName f = "(" ++ recv.type.text ++ ")" ++ "." ++ f.name := by
  unfold qualifiedName
  rw [hrecv, ← String.toList_inj]
  simp [toString]

theorem qualifiedName_plain (hrecv : f.receiver? = none) (hpkg : p.package? f.package = some pkg) :
    p.qualifiedName f = pkg.name ++ "." ++ f.name := by
  unfold qualifiedName
  rw [hrecv]
  dsimp only
  rw [hpkg]
  rfl

theorem Intact.package_of_function? (h : p.Intact) (hf : p.function? id = some f) :
    f.package = id.package := by
  obtain ⟨pkg, hpkg, hf⟩ := Option.bind_eq_some_iff.1 hf
  have hhome := (h.closed pkg (package?_mem hpkg)).home f (Package.mem_of_function? hf)
  exact hhome.trans (h.number _ _ hpkg)

theorem Intact.mem_functionEntries_iff (h : p.Intact) :
    (id, f) ∈ p.functionEntries ↔ p.function? id = some f := by
  unfold functionEntries
  rw [List.mem_flatMap]
  constructor
  · rintro ⟨pkg, hmem, hentry⟩
    obtain ⟨pid, hpkg⟩ := exists_package? hmem
    exact h.function?_of_package? hpkg (Package.mem_functionEntries_iff.1 hentry)
  · intro hf
    obtain ⟨pkg, hpkg, hf⟩ := Option.bind_eq_some_iff.1 hf
    exact ⟨pkg, package?_mem hpkg, Package.mem_functionEntries_iff.2 hf⟩

/-! ## Finding functions -/

/-- The function that a package-level name leads to has this name. -/
theorem Reachable.qualifiedName_of_functionNamed? (h : p.Reachable) {s : String}
    (hid : p.functionNamed? s = some id) :
    ∃ f, p.function? id = some f ∧ p.qualifiedName f = s := by
  obtain ⟨⟨short, name⟩, hsplit, hid⟩ := Option.bind_eq_some_iff.1 hid
  obtain ⟨pkg, hnamed, hid⟩ := Option.bind_eq_some_iff.1 hid
  obtain ⟨m, hmember, hid⟩ := Option.bind_eq_some_iff.1 hid
  obtain ⟨rfl, -⟩ := Text.splitAt?_eq_some hsplit
  obtain ⟨pid, hpkg, hname, -⟩ := h.intact.named?_iff.1 hnamed
  have hcoherent := h.coherent (package?_mem hpkg)
  obtain ⟨hkey, hbacks⟩ := hcoherent.members name m hmember
  obtain ⟨f, hf, hfname, hplain⟩ : ∃ f, pkg.function? id = some f ∧ f.name = m.name ∧
      f.receiver? = none := by
    cases hbacks with
    | type | const | guard | global => cases hid
    | init found named plain | function found named plain =>
      cases hid
      exact ⟨_, found, named, plain⟩
  have hfound := h.intact.function?_of_package? hpkg hf
  have hhome : p.package? f.package = some pkg := by
    rw [h.intact.package_of_function? hfound, (Option.ite_none_right_eq_some.1 hf).1,
      h.intact.number _ _ hpkg]
    exact hpkg
  refine ⟨f, hfound, ?_⟩
  rw [qualifiedName_plain hplain hhome, hname, hfname, hkey]

/-- A function that a name is found to stand for has this qualified name. -/
theorem Reachable.qualifiedName_of_findFunction? (h : p.Reachable) {s : String}
    (hid : p.findFunction? s = some id) : ∃ f, p.function? id = some f ∧ p.qualifiedName f = s := by
  unfold findFunction? at hid
  cases hnamed : p.functionNamed? s with
  | some id' =>
    rw [hnamed] at hid
    cases hid
    exact h.qualifiedName_of_functionNamed? hnamed
  | none =>
    rw [hnamed] at hid
    obtain ⟨⟨id', f⟩, hfind, rfl⟩ := Option.map_eq_some_iff.1 hid
    have hname : p.qualifiedName f = s := by simpa using List.find?_some hfind
    exact ⟨f, h.intact.mem_functionEntries_iff.1 (List.mem_of_find?_eq_some hfind), hname⟩

/-- No function has a qualified name under which none is found. -/
theorem Reachable.qualifiedName_ne_of_findFunction? (h : p.Reachable) {s : String}
    (hnone : p.findFunction? s = none) (hf : p.function? id = some f) : p.qualifiedName f ≠ s := by
  intro hname
  unfold findFunction? at hnone
  cases hnamed : p.functionNamed? s with
  | some id' =>
    rw [hnamed] at hnone
    cases hnone
  | none =>
    rw [hnamed] at hnone
    have hall := List.find?_eq_none.1 (Option.map_eq_none_iff.1 hnone)
    have hentry := h.intact.mem_functionEntries_iff.2 hf
    have hne := hall _ hentry
    simp [hname] at hne

end Program

end TraceDebugger
