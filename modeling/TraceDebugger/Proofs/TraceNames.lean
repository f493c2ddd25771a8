import TraceDebugger.Proofs.Acceptance
import TraceDebugger.Proofs.Closures

/-!
# Names in traces

The frames of a trace give the qualified names of functions, and a function is found again by such a
name. In every program a name leads to a function that has it. In a program that is made of units
that tell their functions apart (`SourceUnit.TellsApart`), different functions have different
qualified names (`Program.TellsApart.qualifiedName_inj`), so each is found by its own
(`Program.trace_names`). For that the text of a receiver has to tell its type (`Ty.IsOf.text_inj`);
where types have no package path, a name with a star at its start looks like a pointer
(`Program.trace_names_starred`).
-/

namespace TraceDebugger

/-! ## Texts of receiver types -/

namespace Ty

variable {path path' name name' : String} {t t' : Ty}

theorem text_pointer (t : Ty) : (pointer t).text = "*" ++ t.text := by
  simp only [text]

theorem text_named (path name : String) :
    (named path name).text = if path = "" then name else path ++ "." ++ name := by
  simp only [text]

/-- The text of a declared type tells its path and its name, which has no dot. -/
theorem text_named_inj (hname : '.' ∉ name.toList) (hname' : '.' ∉ name'.toList)
    (h : (named path name).text = (named path' name').text) : path = path' ∧ name = name' := by
  have hdotted : ∀ a b : String, '.' ∈ (a ++ "." ++ b).toList := by
    intro a b
    rw [Text.toList_dotted]
    exact List.mem_append_right _ List.mem_cons_self
  rw [text_named, text_named] at h
  by_cases hpath : path = ""
  · by_cases hpath' : path' = ""
    · rw [if_pos hpath, if_pos hpath'] at h
      exact ⟨hpath.trans hpath'.symm, h⟩
    · rw [if_pos hpath, if_neg hpath'] at h
      rw [h] at hname
      exact absurd (hdotted path' name') hname
  · by_cases hpath' : path' = ""
    · rw [if_neg hpath, if_pos hpath'] at h
      rw [← h] at hname'
      exact absurd (hdotted path name) hname'
    · rw [if_neg hpath, if_neg hpath'] at h
      exact Text.dotted_inj_last hname hname' h

/-- The text of a declared type does not begin like that of a pointer. -/
theorem head?_text_named (hpath : path.toList.head? ≠ some '*')
    (hname : path = "" → name.toList.head? ≠ some '*') :
    (named path name).text.toList.head? ≠ some '*' := by
  rw [text_named]
  by_cases hempty : path = ""
  · rw [if_pos hempty]
    exact hname hempty
  · rw [if_neg hempty, Text.toList_dotted]
    have hchars : path.toList ≠ [] := by
      intro hnil
      exact hempty (String.toList_eq_nil_iff.1 hnil)
    rw [List.head?_append_of_ne_nil _ hchars]
    exact hpath

theorem text_pointer_ne {elem : Ty} (h : t.text.toList.head? ≠ some '*') :
    (pointer elem).text ≠ t.text := by
  intro heq
  rw [← heq, text_pointer, String.toList_append] at h
  exact h rfl

/-- The text of the type of a receiver tells the type. -/
theorem IsOf.text_inj (h : t.IsOf path name) (h' : t'.IsOf path' name')
    (hname : '.' ∉ name.toList) (hname' : '.' ∉ name'.toList)
    (hstar : (named path name).text.toList.head? ≠ some '*')
    (hstar' : (named path' name').text.toList.head? ≠ some '*') (heq : t.text = t'.text) :
    t = t' := by
  rcases h with rfl | rfl <;> rcases h' with rfl | rfl
  · obtain ⟨rfl, rfl⟩ := text_named_inj hname hname' heq
    rfl
  · exact absurd heq.symm (text_pointer_ne hstar)
  · exact absurd heq (text_pointer_ne hstar')
  · rw [text_pointer, text_pointer, String.append_right_inj] at heq
    obtain ⟨rfl, rfl⟩ := text_named_inj hname hname' heq
    rfl

end Ty

/-! ## Units that tell their functions apart -/

namespace SourceUnit

/-- An item of the unit asks for an object. -/
def Asks (u : SourceUnit) (o : ObjectId) : Prop := ∃ item ∈ u.items, ∃ source, item.Makes o source

/-- The names of a unit have no characters that separate the parts of a qualified name, and tell
apart what the unit asks for. -/
structure TellsApart (u : SourceUnit) : Prop where
  /-- The name of an object has no dot. -/
  undotted : ∀ o object, u.object? o = some object → '.' ∉ object.name.toList
  /-- A name in the package scope has no dot. -/
  bound : ∀ name o, u.Binds .package name o → '.' ∉ name.toList
  /-- No two objects have the same name, unless one is a method. -/
  topLevel : ∀ o o' object object', u.Asks o → u.Asks o' → u.object? o = some object →
    u.object? o' = some object' → object.isMethod = false → object'.isMethod = false →
    object.name = object'.name → o = o'
  /-- No object is called like the initializer, unless it is a method. -/
  notInit : ∀ o object, u.Asks o → u.object? o = some object → object.isMethod = false →
    object.name ≠ "init"
  /-- No two methods have the same type of receiver and the same name. -/
  methods : ∀ o o' object object' recv recv', u.Asks o → u.Asks o' → u.object? o = some object →
    u.object? o' = some object' → object.receiver? = some recv → object'.receiver? = some recv' →
    recv.type = recv'.type → object.name = object'.name → o = o'
  /-- The short name has neither dot nor parenthesis. -/
  short : '.' ∉ u.name.toList ∧ '(' ∉ u.name.toList
  /-- The path does not begin with a star. -/
  path : u.path.toList.head? ≠ some '*'

/-- Types that are named without a path have no star at the start of their names. -/
def Unstarred (u : SourceUnit) : Prop :=
  u.path = "" → ∀ name, u.DeclaresType name → name.toList.head? ≠ some '*'

theorem DeclaresType.binds {u : SourceUnit} {name : String} (h : u.DeclaresType name) :
    ∃ o, u.Binds .package name o := by
  obtain ⟨scope, o, object, hscope, hname, -⟩ := h
  exact ⟨o, binds_package_iff.2 ⟨scope, hscope, (Table.find?_eq_some_iff _).1 hname⟩⟩

end SourceUnit

/-! ## Where the functions of a package come from -/

theorem Object.isMethod_eq_isSome (object : Object) :
    object.isMethod = object.receiver?.isSome := by
  cases object <;> rfl

namespace Package

variable {pkg : Package} {id id' : FunctionId} {f f' : Function} {recv recv' : Var}

/-- A function is the initializer, or what an object has become that the unit asks for. -/
inductive Arises (pkg : Package) (id : FunctionId) (f : Function) : Prop where
  | init (first : id = pkg.initId) (named : f.name = "init") (plain : f.receiver? = none)
  | object {o : ObjectId} {object : Object} (asked : pkg.unit.Asks o)
      (found : pkg.unit.object? o = some object) (named : object.name = f.name)
      (received : object.receiver? = f.receiver?)
      (value : pkg.values.find? o = some (.function id))

theorem Finished.asks (h : pkg.Finished) {o : ObjectId} (ho : (pkg.values.find? o).isSome) :
    pkg.unit.Asks o := by
  obtain ⟨id, u, draft, hbuild, rfl⟩ := h
  have htracks := Draft.tracks_build (Draft.tracks_start id u) hbuild
  have hunit : draft.finish.unit = u := htracks.unit
  obtain ⟨-, hitem⟩ := htracks.asked o ho
  rw [hunit]
  exact hitem

/-- The functions of a package as it was made come from its unit. -/
theorem Finished.arises (h : pkg.Finished) (hf : pkg.function? id = some f) : pkg.Arises id f := by
  obtain ⟨init, rest, hfunctions, ⟨hname, hplain, -⟩, hrest⟩ := h.founded
  obtain ⟨hhome, hget⟩ := Option.ite_none_right_eq_some.1 hf
  rw [hfunctions] at hget
  cases hindex : id.index with
  | zero =>
    rw [hindex, List.getElem?_cons_zero, Option.some.injEq] at hget
    subst hget
    have hfirst : id = pkg.initId := by
      obtain ⟨package, index⟩ := id
      exact congrArg₂ FunctionId.mk hhome hindex
    exact .init hfirst hname hplain
  | succ n =>
    rw [hindex, List.getElem?_cons_succ] at hget
    obtain ⟨o, ho⟩ := Option.isSome_iff_exists.1 (hrest f (List.mem_of_getElem? hget)).1
    have hvalue := (h.coherent.functions id f hf).object o ho
    obtain ⟨object, hobject, hrecords⟩ := h.coherent.values o _ hvalue
    have hasked := h.asks (Option.isSome_iff_exists.2 ⟨_, hvalue⟩)
    cases hrecords with
    | @function name pos signature _ g found _ named typed =>
      rw [hf, Option.some.injEq] at found
      subst found
      exact .object hasked hobject named.symm (congrArg Signature.recv typed.symm) hvalue

/-- The name of a function has no dot. -/
theorem Arises.undotted (h : pkg.Arises id f) (hu : pkg.unit.TellsApart) : '.' ∉ f.name.toList := by
  cases h with
  | init first named plain =>
    rw [named]
    decide
  | object asked found named received value =>
    rw [← named]
    exact hu.undotted _ _ found

/-- Functions without receivers are told apart by their names. -/
theorem Arises.eq_of_plain (h : pkg.Arises id f) (h' : pkg.Arises id' f')
    (hu : pkg.unit.TellsApart) (hplain : f.receiver? = none) (hplain' : f'.receiver? = none)
    (hname : f.name = f'.name) : id = id' := by
  have hmethod : ∀ {object : Object} {g : Function}, object.receiver? = g.receiver? →
      g.receiver? = none → object.isMethod = false := by
    intro object g hreceived hnone
    rw [Object.isMethod_eq_isSome, hreceived, hnone]
    rfl
  cases h with
  | init first named =>
    cases h' with
    | init first' => exact first.trans first'.symm
    | object asked found named' received =>
      have hother := hu.notInit _ _ asked found (hmethod received hplain')
      exact absurd (named'.trans (hname.symm.trans named)) hother
  | object asked found named received value =>
    cases h' with
    | init first' named' =>
      have hother := hu.notInit _ _ asked found (hmethod received hplain)
      exact absurd (named.trans (hname.trans named')) hother
    | object asked' found' named' received' value' =>
      have hsame := hu.topLevel _ _ _ _ asked asked' found found' (hmethod received hplain)
        (hmethod received' hplain') (named.trans (hname.trans named'.symm))
      rw [hsame, value'] at value
      cases value
      rfl

theorem Arises.exists_method (h : pkg.Arises id f) (hrecv : f.receiver? = some recv) :
    ∃ o object, pkg.unit.Asks o ∧ pkg.unit.object? o = some object ∧ object.name = f.name ∧
      object.receiver? = some recv ∧ pkg.values.find? o = some (.function id) := by
  cases h with
  | init first named plain =>
    rw [hrecv] at plain
    cases plain
  | object asked found named received value =>
    exact ⟨_, _, asked, found, named, received.trans hrecv, value⟩

/-- Methods are told apart by the types of their receivers and their names. -/
theorem Arises.eq_of_method (h : pkg.Arises id f) (h' : pkg.Arises id' f')
    (hu : pkg.unit.TellsApart) (hrecv : f.receiver? = some recv)
    (hrecv' : f'.receiver? = some recv') (htype : recv.type = recv'.type)
    (hname : f.name = f'.name) : id = id' := by
  obtain ⟨o, object, hasked, hobject, hnamed, hreceived, hvalue⟩ := h.exists_method hrecv
  obtain ⟨o', object', hasked', hobject', hnamed', hreceived', hvalue'⟩ := h'.exists_method hrecv'
  have hsame : o = o' := hu.methods o o' object object' recv recv' hasked hasked' hobject hobject'
    hreceived hreceived' htype (hnamed.trans (hname.trans hnamed'.symm))
  rw [hsame, hvalue'] at hvalue
  cases hvalue
  rfl

/-- A method has a receiver of a type that the unit declares. -/
theorem Arises.exists_base (h : pkg.Arises id f) (hr : pkg.Receives)
    (hrecv : f.receiver? = some recv) :
    ∃ name, recv.type.IsOf pkg.path name ∧ pkg.unit.DeclaresType name := by
  obtain ⟨o, object, -, hobject, -, hreceived, hvalue⟩ := h.exists_method hrecv
  have hmethod : pkg.HasMethod o id recv := ⟨hvalue, by rw [hobject]; exact hreceived⟩
  exact Draft.isDeclaredType_iff.1 (hr o id recv hmethod)

end Package

/-! ## Programs that are made of units -/

namespace Program

variable {p : Program} {pkg pkg' : Package} {id id' : FunctionId} {f f' : Function}
  {recv recv' : Var} {units : List SourceUnit}

/-- The packages of units that are made one by one are as they were made. -/
theorem mem_packages_run_create (hmem : pkg ∈ (p.run (units.map .create)).packages) :
    pkg ∈ p.packages ∨ (pkg.Finished ∧ pkg.unit ∈ units) := by
  induction units generalizing p with
  | nil => exact .inl hmem
  | cons u rest ih =>
    have hrun : (p.run ((u :: rest).map .create)) = (p.create u).program.run (rest.map .create) :=
      rfl
    rw [hrun] at hmem
    rcases ih hmem with hfirst | ⟨hfinished, hunit⟩
    · rcases p.create_program_cases u with hkept | ⟨draft, hbuilds⟩
      · rw [hkept] at hfirst
        exact .inl hfirst
      · rw [hbuilds.program] at hfirst
        rcases List.mem_append.1 hfirst with hold | hnew
        · exact .inl hold
        · rw [List.mem_singleton.1 hnew]
          have hunit : draft.finish.unit = u := (Draft.id_unit_of_build hbuilds.built).2
          rw [hunit]
          exact .inr ⟨⟨_, u, draft, hbuilds.built, rfl⟩, List.mem_cons_self⟩
    · exact .inr ⟨hfinished, List.mem_cons_of_mem _ hunit⟩

/-- Every package is as it was made of a unit that tells its functions apart, and no two have the
same short name. -/
structure TellsApart (p : Program) : Prop where
  finished : ∀ pkg ∈ p.packages, pkg.Finished
  apart : ∀ pkg ∈ p.packages, pkg.unit.TellsApart
  unstarred : ∀ pkg ∈ p.packages, pkg.unit.Unstarred
  short : ∀ pkg ∈ p.packages, ∀ pkg' ∈ p.packages, pkg.name = pkg'.name → pkg.path = pkg'.path

theorem tellsApart_built (diagnostics : Diagnostics) (hshort : (units.map (·.name)).Nodup)
    (happart : ∀ u ∈ units, u.TellsApart) (hstars : ∀ u ∈ units, u.Unstarred) :
    (built diagnostics (units.map .create)).TellsApart := by
  have hmade : ∀ pkg ∈ (built diagnostics (units.map .create)).packages,
      pkg.Finished ∧ pkg.unit ∈ units := by
    intro pkg hmem
    rcases mem_packages_run_create hmem with hold | hnew
    · cases hold
    · exact hnew
  refine ⟨fun pkg hmem => (hmade pkg hmem).1, fun pkg hmem => happart _ (hmade pkg hmem).2,
    fun pkg hmem => hstars _ (hmade pkg hmem).2, fun pkg hmem pkg' hmem' hname => ?_⟩
  have hunit := List.inj_on_of_nodup_map hshort (hmade pkg hmem).2 (hmade pkg' hmem').2 hname
  exact congrArg SourceUnit.path hunit

/-! ## Different functions have different names -/

/-- A function comes from a package of the program. -/
structure Comes (p : Program) (id : FunctionId) (f : Function) (pkg : Package) : Prop where
  mem : pkg ∈ p.packages
  home : p.package? f.package = some pkg
  arises : pkg.Arises id f

namespace TellsApart

variable (h : p.TellsApart) (hreach : p.Reachable)
include h hreach

theorem exists_comes (hf : p.function? id = some f) : ∃ pkg, p.Comes id f pkg := by
  obtain ⟨pkg, hpkg, hfound⟩ := Option.bind_eq_some_iff.1 hf
  have hmem := package?_mem hpkg
  refine ⟨pkg, hmem, ?_, (h.finished pkg hmem).arises hfound⟩
  rw [hreach.intact.package_of_function? hf]
  exact hpkg

theorem eq_of_plain (hcomes : p.Comes id f pkg) (hcomes' : p.Comes id' f' pkg')
    (hplain : f.receiver? = none) (hplain' : f'.receiver? = none)
    (heq : p.qualifiedName f = p.qualifiedName f') : id = id' := by
  have hu := h.apart pkg hcomes.mem
  have hu' := h.apart pkg' hcomes'.mem
  rw [qualifiedName_plain hplain hcomes.home, qualifiedName_plain hplain' hcomes'.home] at heq
  obtain ⟨hshort, hname⟩ := Text.dotted_inj_first hu.short.1 hu'.short.1 heq
  have hpath := h.short pkg hcomes.mem pkg' hcomes'.mem hshort
  have hsame := List.inj_on_of_nodup_map hreach.intact.paths hcomes.mem hcomes'.mem hpath
  subst hsame
  exact hcomes.arises.eq_of_plain hcomes'.arises hu hplain hplain' hname

theorem eq_of_method (hcomes : p.Comes id f pkg) (hcomes' : p.Comes id' f' pkg')
    (hrecv : f.receiver? = some recv) (hrecv' : f'.receiver? = some recv')
    (heq : p.qualifiedName f = p.qualifiedName f') : id = id' := by
  have hu := h.apart pkg hcomes.mem
  have hu' := h.apart pkg' hcomes'.mem
  rw [qualifiedName_method p hrecv, qualifiedName_method p hrecv'] at heq
  obtain ⟨hparens, hname⟩ := Text.dotted_inj_last (hcomes.arises.undotted hu)
    (hcomes'.arises.undotted hu') heq
  have htext : recv.type.text = recv'.type.text :=
    String.append_right_inj _ |>.1 (String.append_left_inj _ |>.1 hparens)
  -- the text tells the type, and the type tells the package
  obtain ⟨base, hbase, hdeclares⟩ := hcomes.arises.exists_base (hreach.receives hcomes.mem) hrecv
  obtain ⟨base', hbase', hdeclares'⟩ :=
    hcomes'.arises.exists_base (hreach.receives hcomes'.mem) hrecv'
  obtain ⟨o, hbinds⟩ := hdeclares.binds
  obtain ⟨o', hbinds'⟩ := hdeclares'.binds
  have hstar := Ty.head?_text_named hu.path fun hempty =>
    h.unstarred pkg hcomes.mem hempty base hdeclares
  have hstar' := Ty.head?_text_named hu'.path fun hempty =>
    h.unstarred pkg' hcomes'.mem hempty base' hdeclares'
  have htype := hbase.text_inj hbase' (hu.bound base o hbinds) (hu'.bound base' o' hbinds') hstar
    hstar' htext
  rw [← htype] at hbase'
  have hpath := (hbase.unique hbase').1
  have hsame := List.inj_on_of_nodup_map hreach.intact.paths hcomes.mem hcomes'.mem hpath
  subst hsame
  exact hcomes.arises.eq_of_method hcomes'.arises hu hrecv hrecv' htype hname

omit hreach in
/-- Only the qualified name of a method begins with a parenthesis. -/
theorem plain_ne_method (hcomes : p.Comes id f pkg) (hplain : f.receiver? = none)
    (hrecv : f'.receiver? = some recv) : p.qualifiedName f ≠ p.qualifiedName f' := by
  intro heq
  rw [qualifiedName_plain hplain hcomes.home, qualifiedName_method p hrecv, ← String.toList_inj,
    Text.toList_dotted, Text.toList_dotted, String.toList_append, String.toList_append] at heq
  have hparen := (h.apart pkg hcomes.mem).short.2
  cases hchars : pkg.name.toList with
  | nil =>
    rw [hchars] at heq
    cases congrArg List.head? heq
  | cons c cs =>
    rw [hchars] at heq
    have hc : c = '(' := Option.some.inj (congrArg List.head? heq)
    apply hparen
    change '(' ∈ pkg.name.toList
    rw [hchars, hc]
    exact List.mem_cons_self

/-- Different functions have different qualified names. -/
theorem qualifiedName_inj (hf : p.function? id = some f) (hf' : p.function? id' = some f')
    (heq : p.qualifiedName f = p.qualifiedName f') : id = id' := by
  obtain ⟨pkg, hcomes⟩ := h.exists_comes hreach hf
  obtain ⟨pkg', hcomes'⟩ := h.exists_comes hreach hf'
  cases hrecv : f.receiver? with
  | none =>
    cases hrecv' : f'.receiver? with
    | none => exact h.eq_of_plain hreach hcomes hcomes' hrecv hrecv' heq
    | some recv' => exact absurd heq (h.plain_ne_method hcomes hrecv hrecv')
  | some recv =>
    cases hrecv' : f'.receiver? with
    | none => exact absurd heq.symm (h.plain_ne_method hcomes' hrecv' hrecv)
    | some recv' => exact h.eq_of_method hreach hcomes hcomes' hrecv hrecv' heq

/-- A function is found by its qualified name. -/
theorem findFunction?_qualifiedName (hf : p.function? id = some f) :
    p.findFunction? (p.qualifiedName f) = some id := by
  cases hfind : p.findFunction? (p.qualifiedName f) with
  | none => exact absurd rfl (hreach.qualifiedName_ne_of_findFunction? hfind hf)
  | some id' =>
    obtain ⟨f', hf', hname⟩ := hreach.qualifiedName_of_findFunction? hfind
    rw [h.qualifiedName_inj hreach hf' hf hname]

end TellsApart

/-- A function that is found by a name has this qualified name, and if none is found then no
function has it. In a program that is made of units one by one, whose short names differ and each of
which tells its functions apart, every function is found by its qualified name. -/
theorem trace_names (diagnostics : Diagnostics) :
    (∀ operations s,
      let p := built diagnostics operations
      (∀ id, p.findFunction? s = some id → ∃ f, p.function? id = some f ∧ p.qualifiedName f = s) ∧
      (p.findFunction? s = none → ∀ id f, p.function? id = some f → p.qualifiedName f ≠ s)) ∧
    ∀ units : List SourceUnit, (units.map (·.name)).Nodup → (∀ u ∈ units, u.TellsApart) →
      (∀ u ∈ units, u.Unstarred) →
      let p := built diagnostics (units.map .create)
      ∀ id f, p.function? id = some f → p.findFunction? (p.qualifiedName f) = some id := by
  refine ⟨fun operations s => ?_, fun units hshort happart hstars => ?_⟩
  · intro p
    have h : p.Reachable := ⟨diagnostics, operations, rfl⟩
    exact ⟨fun id hid => h.qualifiedName_of_findFunction? hid,
      fun hnone id f hf => h.qualifiedName_ne_of_findFunction? hnone hf⟩
  · intro p id f hf
    have h : p.Reachable := ⟨diagnostics, _, rfl⟩
    exact (tellsApart_built diagnostics hshort happart hstars).findFunction?_qualifiedName h hf

section

variable {path short other : String} {t u : Ty} {o : ObjectId} {object : Object}

theorem plain_of_namesakes (h : (namesakes path short other t u).object? o = some object)
    (hplain : object.isMethod = false) :
    (o.index.toNat, object.name) ∈ [(0, "T"), (1, other), (4, "f")] := by
  unfold SourceUnit.object? namesakes at h
  generalize o.index.toNat = n at h ⊢
  match n with
  | 0 | 1 | 4 =>
    cases h
    simp [Object.name]
  | 2 | 3 =>
    cases h
    cases hplain
  | n + 5 => cases h

theorem method_of_namesakes (h : (namesakes path short other t u).object? o = some object)
    (hrecv : object.receiver? = some recv) :
    (o.index.toNat, recv.type) ∈ [(2, t), (3, u)] := by
  unfold SourceUnit.object? namesakes at h
  generalize o.index.toNat = n at h ⊢
  match n with
  | 0 | 1 | 4 =>
    cases h
    cases hrecv
  | 2 | 3 =>
    cases h
    cases hrecv
    simp
  | n + 5 => cases h

theorem tellsApart_namesakes (hdot : '.' ∉ other.toList) (hother : other ∉ ["T", "f", "init"])
    (htypes : t ≠ u) (hshort : '.' ∉ short.toList ∧ '(' ∉ short.toList)
    (hpath : path.toList.head? ≠ some '*') : (namesakes path short other t u).TellsApart := by
  have hnames : (["T", other, "f"] : List String).Nodup := by
    simp only [List.mem_cons, List.not_mem_nil, or_false, not_or] at hother
    simp [hother.1, hother.2.1, eq_comm]
  let bound : List (String × ObjectId) := [("T", ⟨0⟩), (other, ⟨1⟩), ("f", ⟨4⟩)]
  have hbound : (bound.map Prod.fst).Nodup := hnames
  have hplains : ([(0, "T"), (1, other), (4, "f")].map Prod.snd).Nodup := hnames
  have hmethods : ([(2, t), (3, u)].map Prod.snd).Nodup := by simp [htypes]
  have hsame : ∀ {o o' : ObjectId}, o.index.toNat = o'.index.toNat → o = o' := by
    rintro ⟨i⟩ ⟨i'⟩ h
    exact congrArg ObjectId.mk (UInt32.toNat_inj.1 h)
  refine ⟨fun o object hobject => ?_, fun name o hbinds => ?_,
    fun o o' object object' _ _ hobject hobject' hplain hplain' hname => ?_,
    fun o object _ hobject hplain hname => ?_,
    fun o o' object object' recv recv' _ _ hobject hobject' hrecv hrecv' htype _ => ?_,
    hshort, hpath⟩
  · have hmem := List.mem_of_getElem? hobject
    simp only [namesakes, List.mem_cons, List.not_mem_nil, or_false] at hmem
    rcases hmem with rfl | rfl | rfl | rfl | rfl
    · exact (by decide : '.' ∉ "T".toList)
    · exact hdot
    all_goals exact (by decide : '.' ∉ "f".toList)
  · obtain ⟨scope, hscope, hfind⟩ := hbinds
    cases hscope
    have hmem : (name, o) ∈ bound := (Table.find?_ofList hbound).1 hfind
    simp only [bound, List.mem_cons, Prod.mk.injEq, List.not_mem_nil, or_false] at hmem
    rcases hmem with ⟨rfl, -⟩ | ⟨rfl, -⟩ | ⟨rfl, -⟩
    · decide
    · exact hdot
    · decide
  · have heq := List.inj_on_of_nodup_map hplains (plain_of_namesakes hobject hplain)
      (plain_of_namesakes hobject' hplain') hname
    exact hsame (congrArg Prod.fst heq)
  · have hmem := List.mem_map_of_mem (f := Prod.snd) (plain_of_namesakes hobject hplain)
    rw [hname] at hmem
    simp only [List.mem_cons, List.not_mem_nil, or_false, not_or] at hother
    simp [hother.2.2, eq_comm] at hmem
  · have heq := List.inj_on_of_nodup_map hmethods (method_of_namesakes hobject hrecv)
      (method_of_namesakes hobject' hrecv') htype
    exact hsame (congrArg Prod.fst heq)

end

theorem trace_names_namesakes :
    let units := [namesakes "m" "m" "U" (.named "m" "T") (.pointer (.named "m" "T")),
      namesakes "x/m" "n" "U" (.named "x/m" "T") (.named "x/m" "U")]
    let p := built {} (units.map .create)
    ((units.map (·.name)).Nodup ∧ (∀ u ∈ units, u.TellsApart) ∧ ∀ u ∈ units, u.Unstarred) ∧
      p.findFunction? "m.init" = some ⟨⟨0⟩, 0⟩ ∧ p.findFunction? "(*m.T).f" = some ⟨⟨0⟩, 2⟩ ∧
      p.findFunction? "n.f" = some ⟨⟨1⟩, 3⟩ := by
  intro units p
  have hshort : (units.map (·.name)).Nodup := by decide
  have happart : ∀ u ∈ units, u.TellsApart := by
    intro u hu
    rcases List.mem_cons.1 hu with rfl | hu
    · exact tellsApart_namesakes (by decide) (by decide) (fun h => nomatch h) (by decide)
        (by decide)
    · rw [List.mem_singleton.1 hu]
      exact tellsApart_namesakes (by decide) (by decide) (by simp) (by decide) (by decide)
  have hstars : ∀ u ∈ units, u.Unstarred := by
    intro u hu hempty
    rcases List.mem_cons.1 hu with rfl | hu
    · exact absurd hempty (by decide)
    · rw [List.mem_singleton.1 hu] at hempty
      exact absurd hempty (by decide)
  have hfound := (trace_names {}).2 units hshort happart hstars
  obtain ⟨init, hinit, hinitName⟩ : ∃ f, p.function? ⟨⟨0⟩, 0⟩ = some f ∧
      p.qualifiedName f = "m.init" := ⟨_, rfl, by decide⟩
  obtain ⟨method, hmethod, hmethodName⟩ : ∃ f, p.function? ⟨⟨0⟩, 2⟩ = some f ∧
      p.qualifiedName f = "(*m.T).f" := ⟨_, rfl, by decide⟩
  obtain ⟨plain, hplain, hplainName⟩ : ∃ f, p.function? ⟨⟨1⟩, 3⟩ = some f ∧
      p.qualifiedName f = "n.f" := ⟨_, rfl, by decide⟩
  refine ⟨⟨hshort, happart, hstars⟩, ?_, ?_, ?_⟩
  · rw [← hinitName]
    exact hfound _ init hinit
  · rw [← hmethodName]
    exact hfound _ method hmethod
  · rw [← hplainName]
    exact hfound _ plain hplain

/-- Where types have no path, a method of the pointers to `T` and a method of a type called `*T`
have the same qualified name, and only one of the two is found by it. -/
theorem trace_names_starred :
    let u := namesakes "" "m" "*T" (.pointer (.named "" "T")) (.named "" "*T")
    let p := built {} ([u].map .create)
    (([u].map (·.name)).Nodup ∧ ∀ v ∈ [u], SourceUnit.TellsApart v) ∧
      ∃ f, p.function? ⟨⟨0⟩, 2⟩ = some f ∧ p.qualifiedName f = "(*T).f" ∧
        p.findFunction? "(*T).f" = some ⟨⟨0⟩, 1⟩ := by
  intro u p
  have happart : u.TellsApart := tellsApart_namesakes (by decide) (by decide)
    (fun h => nomatch h) (by decide) (by decide)
  refine ⟨⟨by decide, fun u hu => ?_⟩, _, rfl, by decide, by decide⟩
  rw [List.mem_singleton.1 hu]
  exact happart

end Program

end TraceDebugger
