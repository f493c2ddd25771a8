import TraceDebugger.Proofs.Permanence
import TraceDebugger.Proofs.QualifiedNames

/-!
# Functions without a name

A function without a name is listed by the function around it and is named for that function and its
place in the list (`Package.InsideAt`). All steps of a package keep this (`Package.Nests.step`). A
place is a number after the last `$` of a name, so two functions without a name have equal names
exactly if they stand at equal places of functions of equal names (`Text.numbered_inj`). Their
qualified names say nothing about the receivers of the functions around them: the functions inside
two methods of one name have the same qualified names (`Program.inner_names`,
`Program.inner_names_of_methods`).
-/

namespace TraceDebugger

/-! ## Numbered names -/

namespace Text

theorem dollar_not_mem_repr (n : Nat) : '$' ∉ n.repr.toList := by
  intro hmem
  rw [Nat.toList_repr] at hmem
  have hdigit := Nat.isDigit_of_mem_toDigits (by omega) (by omega) hmem
  revert hdigit
  decide

theorem repr_inj {n n' : Nat} (h : n.repr.toList = n'.repr.toList) : n = n' := by
  rw [Nat.toList_repr, Nat.toList_repr] at h
  have hread := congrArg (Nat.ofDigitChars 10 · 0) h
  simpa only [Nat.ofDigitChars_ten_toDigits] using hread

theorem toList_numbered (stem : String) (n : Nat) :
    (s!"{stem}${n}").toList = stem.toList ++ '$' :: n.repr.toList := by
  change (stem ++ "$" ++ n.repr).toList = _
  rw [String.toList_append, String.toList_append, List.append_assoc]
  rfl

/-- What stands before the last `$` and the number after it are told by the text. -/
theorem numbered_inj {stem other : String} {n m : Nat} :
    s!"{stem}${n}" = s!"{other}${m}" ↔ stem = other ∧ n = m := by
  constructor
  · intro h
    rw [← String.toList_inj, toList_numbered, toList_numbered] at h
    obtain ⟨hstem, hn⟩ := append_inj_last (dollar_not_mem_repr n) (dollar_not_mem_repr m) h
    exact ⟨String.toList_inj.1 hstem, repr_inj hn⟩
  · rintro ⟨rfl, rfl⟩
    rfl

/-- The number after the last `$` is told by the text, whatever stands before it. -/
theorem number_inj_of_dotted {before before' stem other : String} {n m : Nat}
    (h : before ++ "." ++ s!"{stem}${n}" = before' ++ "." ++ s!"{other}${m}") : n = m := by
  have htext : ∀ (a b : String) (k : Nat), (a ++ "." ++ s!"{b}${k}").toList =
      (a ++ "." ++ b).toList ++ '$' :: k.repr.toList := by
    intro a b k
    rw [toList_dotted, toList_numbered, toList_dotted, List.append_assoc, List.cons_append]
  rw [← String.toList_inj, htext, htext] at h
  exact repr_inj (append_inj_last (dollar_not_mem_repr n) (dollar_not_mem_repr m) h).2

theorem dot_mem_numbered {stem : String} {n : Nat} (h : '.' ∈ (s!"{stem}${n}").toList) :
    '.' ∈ stem.toList := by
  rw [toList_numbered, List.mem_append, List.mem_cons, Nat.toList_repr] at h
  rcases h with h | h | h
  · exact h
  · exact absurd h (by decide)
  · have hdigit := Nat.isDigit_of_mem_toDigits (by omega) (by omega) h
    exact absurd hdigit (by decide)

end Text

/-! ## Functions of a finished package -/

namespace Package

/-- The functions are the initializer and then functions of objects, and none is inside another. -/
def Founded (pkg : Package) : Prop :=
  ∃ init rest, pkg.functions = init :: rest ∧
    (init.name = "init" ∧ init.receiver? = none ∧ init.enclosing = none) ∧
    ∀ f ∈ rest, f.object.isSome ∧ f.enclosing = none

end Package

namespace Draft

variable {d d' : Draft}

theorem founded_made (h : d.package.Founded) {o : ObjectId} {source : DeclSource}
    (hm : d.Made o source d') : d'.package.Founded := by
  obtain ⟨init, rest, hfunctions, hinit, hrest⟩ := h
  rcases hm.functions_cases with hkept | ⟨name, pos, signature, -, hadded⟩
  · exact ⟨init, rest, hkept.trans hfunctions, hinit, hrest⟩
  · rw [hfunctions, List.cons_append] at hadded
    refine ⟨init, _, hadded, hinit, fun f hf => ?_⟩
    rcases List.mem_append.1 hf with hf | hf
    · exact hrest f hf
    · rw [List.mem_singleton.1 hf, builtFunction_object, builtFunction_enclosing]
      exact ⟨rfl, rfl⟩

theorem founded_adoptInit (h : d.package.Founded) (decl : FuncDecl) :
    (d.adoptInit decl).package.Founded := by
  obtain ⟨init, rest, hfunctions, ⟨hname, hrecv, henclosing⟩, hrest⟩ := h
  have hkeeps := init.keeps_adopt_addLocals decl.source (initLocals d.package decl)
  refine ⟨(init.adopt decl.source).addLocals (initLocals d.package decl), rest, ?_,
    ⟨hkeeps.name.trans hname, ?_, hkeeps.enclosing.trans henclosing⟩, hrest⟩
  · rw [adoptInit_package, hfunctions]
    rfl
  · unfold Function.receiver?
    rw [hkeeps.signature]
    exact hrecv

end Draft

namespace Package

variable {pkg pkg' : Package} {id e : FunctionId} {f f' parent : Function} {k : Nat}

theorem Finished.founded (h : pkg.Finished) : pkg.Founded := by
  obtain ⟨id, u, draft, hbuild, rfl⟩ := h
  have hdraft : draft.package.Founded :=
    Draft.build_invariant (P := fun d => d.package.Founded) (fun _ _ hd => hd)
      (fun _ decl hd => Draft.founded_adoptInit hd decl)
      (fun _ _ _ _ hd hm => Draft.founded_made hd hm) hbuild
      ⟨initializer id, [], rfl, ⟨rfl, rfl, rfl⟩, fun _ hf => (nomatch hf)⟩
  exact hdraft

theorem Founded.enclosing_eq_none (h : pkg.Founded) (hf : pkg.function? id = some f) :
    f.enclosing = none := by
  obtain ⟨init, rest, hfunctions, hinit, hrest⟩ := h
  have hmem := mem_of_function? hf
  rw [hfunctions] at hmem
  rcases List.mem_cons.1 hmem with rfl | hmem
  · exact hinit.2.2
  · exact (hrest f hmem).2

/-! ## Places inside a function -/

/-- The function `f` of the id `id` is listed by the function of the id `e` around it, at the place
`k`, and comes after it. -/
structure InsideAt (pkg : Package) (id : FunctionId) (f : Function) (e : FunctionId)
    (parent : Function) (k : Nat) : Prop where
  around : pkg.function? e = some parent
  listed : parent.anonymous[k]? = some id
  named : f.name = s!"{parent.name}${k + 1}"
  scope : f.scope = parent.scope
  after : e.index < id.index

/-- Every function that is inside another has a place there. -/
def Nests (pkg : Package) : Prop :=
  ∀ id f e, pkg.function? id = some f → f.enclosing = some e →
    ∃ parent k, pkg.InsideAt id f e parent k

end Package

/-- A function later on: functions are added inside it at the end, and it may have got basic
blocks. -/
def Function.Lengthens (f f' : Function) : Prop :=
  ∃ added blocks, f' = { f with anonymous := f.anonymous ++ added, blocks := blocks }

theorem Function.Lengthens.refl (f : Function) : f.Lengthens f :=
  ⟨[], f.blocks, by rw [List.append_nil]⟩

namespace Package

variable {pkg pkg' : Package} {id e : FunctionId} {f f' parent : Function} {k : Nat}

theorem InsideAt.mono (h : pkg.InsideAt id f e parent k) (hf : f.Lengthens f')
    (hkept : ∀ id f, pkg.function? id = some f →
      ∃ f', pkg'.function? id = some f' ∧ f.Lengthens f') :
    ∃ parent', pkg'.InsideAt id f' e parent' k := by
  obtain ⟨parent', hparent', added, blocks, rfl⟩ := hkept e parent h.around
  obtain ⟨added', blocks', rfl⟩ := hf
  have hlt : k < parent.anonymous.length := (List.getElem?_eq_some_iff.1 h.listed).1
  exact ⟨_, hparent', (List.getElem?_append_left hlt).trans h.listed, h.named, h.scope, h.after⟩

/-- Places stay if functions are kept, and those that are new need a place of their own. -/
theorem Nests.extend (h : pkg.Nests)
    (hkept : ∀ id f, pkg.function? id = some f →
      ∃ f', pkg'.function? id = some f' ∧ f.Lengthens f')
    (hnew : ∀ id f', pkg'.function? id = some f' → (∃ f, pkg.function? id = some f) ∨
      ∀ e, f'.enclosing = some e → ∃ parent k, pkg'.InsideAt id f' e parent k) : pkg'.Nests := by
  intro id f' e hf' he
  rcases hnew id f' hf' with ⟨f, hf⟩ | hplace
  · obtain ⟨f'', hf'', hlengthens⟩ := hkept id f hf
    rw [hf', Option.some.injEq] at hf''
    subst hf''
    have hsame : f'.enclosing = f.enclosing := by
      obtain ⟨added, blocks, rfl⟩ := hlengthens
      rfl
    rw [hsame] at he
    obtain ⟨parent, k, hinside⟩ := h id f e hf he
    obtain ⟨parent', hinside'⟩ := hinside.mono hlengthens hkept
    exact ⟨parent', k, hinside'⟩
  · exact hplace e he

theorem Nests.addFunction (h : pkg.Nests) (hf : f.enclosing = none) :
    (pkg.addFunction f).Nests := by
  refine h.extend (fun id g hg => ⟨g, function?_addFunction_of_some hg f, .refl g⟩) ?_
  intro id g hg
  rcases (function?_append (p := pkg) (q := pkg.addFunction f) rfl rfl).1 hg with
    hold | ⟨-, rfl⟩
  · exact .inl ⟨g, hold⟩
  · refine .inr fun e he => ?_
    rw [hf] at he
    cases he

theorem Nests.setBlocks (h : pkg.Nests) (target : FunctionId) (blocks : List Block) :
    (pkg.modifyFunction target fun f => { f with blocks := some blocks }).Nests := by
  refine h.extend (fun id f hf => ?_) (fun id f' hf' => ?_)
  · rw [function?_modifyFunction, hf]
    by_cases hid : id = target
    · rw [if_pos hid]
      refine ⟨_, rfl, [], some blocks, ?_⟩
      rw [List.append_nil]
    · rw [if_neg hid]
      exact ⟨f, rfl, .refl f⟩
  · rw [function?_modifyFunction] at hf'
    by_cases hid : id = target
    · rw [if_pos hid] at hf'
      obtain ⟨f, hf, -⟩ := Option.map_eq_some_iff.1 hf'
      exact .inl ⟨f, hf⟩
    · rw [if_neg hid] at hf'
      exact .inl ⟨f', hf'⟩

theorem ne_nextFunction (h : pkg.function? id = some f) : id ≠ pkg.nextFunction := by
  rintro rfl
  have hlt := (List.getElem?_eq_some_iff.1 (Option.ite_none_right_eq_some.1 h).2).1
  exact Nat.lt_irrefl _ hlt

/-- The function that is added inside another takes the place after the last one there. -/
theorem insideAt_withAnonymous (inside : pkg.function? e = some parent) (signature : Signature)
    (freeVars : List Var) :
    let anon := Program.anonymousIn pkg e parent signature freeVars
    let pkg' := Program.withAnonymous pkg e parent signature freeVars
    pkg'.function? pkg.nextFunction = some anon ∧
      ∃ parent', pkg'.InsideAt pkg.nextFunction anon e parent' parent.anonymous.length := by
  intro anon pkg'
  obtain ⟨-, hindex⟩ := Option.ite_none_right_eq_some.1 inside
  have hlt : e.index < pkg.functions.length := (List.getElem?_eq_some_iff.1 hindex).1
  have hne : pkg.nextFunction ≠ e := (ne_nextFunction inside).symm
  have hlast : (pkg.addFunction anon).function? pkg.nextFunction = some anon :=
    (function?_append (p := pkg) (q := pkg.addFunction anon) rfl rfl).2 (.inr ⟨rfl, rfl⟩)
  refine ⟨?_, { parent with anonymous := parent.anonymous ++ [pkg.nextFunction] }, ?_, ?_, rfl,
    rfl, hlt⟩
  · rw [function?_withAnonymous, hlast, Option.map_some, if_neg hne]
  · rw [function?_withAnonymous, function?_addFunction_of_some inside, Option.map_some, if_pos rfl]
  · simp

theorem Nests.withAnonymous (h : pkg.Nests) (inside : pkg.function? e = some parent)
    (signature : Signature) (freeVars : List Var) :
    (Program.withAnonymous pkg e parent signature freeVars).Nests := by
  obtain ⟨hlast, hplace⟩ := insideAt_withAnonymous inside signature freeVars
  refine h.extend (fun id f hf => ?_) (fun id f' hf' => ?_)
  · rw [function?_withAnonymous, function?_addFunction_of_some hf, Option.map_some]
    refine ⟨_, rfl, ?_⟩
    by_cases hid : id = e
    · rw [if_pos hid]
      exact ⟨[pkg.nextFunction], f.blocks, rfl⟩
    · rw [if_neg hid]
      exact .refl f
  · by_cases hid : id = pkg.nextFunction
    · subst hid
      rw [hlast, Option.some.injEq] at hf'
      subst hf'
      refine .inr fun e' he' => ?_
      cases he'
      obtain ⟨parent', hinside⟩ := hplace
      exact ⟨parent', _, hinside⟩
    · rw [function?_withAnonymous] at hf'
      obtain ⟨f, hf, -⟩ := Option.map_eq_some_iff.1 hf'
      rcases (function?_append (p := pkg)
          (q := pkg.addFunction (Program.anonymousIn pkg e parent signature freeVars)) rfl rfl).1 hf
        with hold | ⟨heq, -⟩
      · exact .inl ⟨f, hold⟩
      · exact absurd heq hid

theorem Nests.step (h : pkg.Nests) (hs : pkg.Step pkg') : pkg'.Nests := by
  cases hs with
  | stays => exact h
  | wrapper _ _ wraps =>
    rcases wraps with rfl | rfl
    · exact h.addFunction rfl
    · exact h.addFunction rfl
  | anonymous inside => exact h.withAnonymous inside _ _
  | blocks target blocks => exact h.setBlocks target blocks

theorem Finished.nests (h : pkg.Finished) : pkg.Nests := by
  intro id f e hf he
  rw [h.founded.enclosing_eq_none hf] at he
  cases he

end Package

namespace Program

variable {p : Program} {pkg : Package} {id id' e e' : FunctionId} {f f' parent parent' : Function}
  {k k' : Nat} {pid : PackageId}

theorem Reachable.nests (h : p.Reachable) (hmem : pkg ∈ p.packages) : pkg.Nests :=
  h.package_induction (fun _ hf => hf.nests) (fun _ _ hp hs => hp.step hs) pkg hmem

/-! ## Qualified names of functions without a name -/

/-- Names of functions without a name are equal for equal places in functions of equal names. -/
theorem name_eq_iff_of_insideAt (h : pkg.InsideAt id f e parent k)
    (h' : pkg.InsideAt id' f' e' parent' k') :
    f.name = f'.name ↔ parent.name = parent'.name ∧ k = k' := by
  rw [h.named, h'.named, Text.numbered_inj, Nat.add_right_cancel_iff]

/-- A text before the dot of a qualified name. -/
theorem exists_qualifier (h : p.Reachable) (hf : p.function? id = some f) :
    ∃ qualifier, p.qualifiedName f = qualifier ++ "." ++ f.name := by
  cases hrecv : f.receiver? with
  | some recv => exact ⟨_, qualifiedName_method p hrecv⟩
  | none =>
    obtain ⟨pkg, hpkg, -⟩ := Option.bind_eq_some_iff.1 hf
    rw [← h.intact.package_of_function? hf] at hpkg
    exact ⟨_, qualifiedName_plain hrecv hpkg⟩

/-- Functions inside one function have different qualified names, whatever their receivers. -/
theorem qualifiedName_ne_of_siblings (h : p.Reachable) (hf : p.function? id = some f)
    (hf' : p.function? id' = some f') (hin : pkg.InsideAt id f e parent k)
    (hin' : pkg.InsideAt id' f' e parent' k') (hne : id ≠ id') :
    p.qualifiedName f ≠ p.qualifiedName f' := by
  have hplace : k ≠ k' := by
    rintro rfl
    have hparent := hin'.around
    rw [hin.around, Option.some.injEq] at hparent
    have hlisted := hin'.listed
    rw [← hparent, hin.listed, Option.some.injEq] at hlisted
    exact hne hlisted
  obtain ⟨before, hname⟩ := exists_qualifier h hf
  obtain ⟨before', hname'⟩ := exists_qualifier h hf'
  intro heq
  rw [hname, hname', hin.named, hin'.named] at heq
  exact hplace (Nat.add_right_cancel (Text.number_inj_of_dotted heq))

/-- Functions inside functions of different names have different qualified names, if the names are
without dots. -/
theorem qualifiedName_ne_of_undotted (h : p.Reachable) (hf : p.function? id = some f)
    (hf' : p.function? id' = some f') (hin : pkg.InsideAt id f e parent k)
    (hin' : pkg.InsideAt id' f' e' parent' k') (hdot : '.' ∉ parent.name.toList)
    (hdot' : '.' ∉ parent'.name.toList) (hne : parent.name ≠ parent'.name) :
    p.qualifiedName f ≠ p.qualifiedName f' := by
  obtain ⟨before, hname⟩ := exists_qualifier h hf
  obtain ⟨before', hname'⟩ := exists_qualifier h hf'
  have hbare : '.' ∉ f.name.toList := by
    rw [hin.named]
    exact fun hmem => hdot (Text.dot_mem_numbered hmem)
  have hbare' : '.' ∉ f'.name.toList := by
    rw [hin'.named]
    exact fun hmem => hdot' (Text.dot_mem_numbered hmem)
  intro heq
  rw [hname, hname'] at heq
  obtain ⟨-, hsame⟩ := Text.dotted_inj_last hbare hbare' heq
  exact hne ((name_eq_iff_of_insideAt hin hin').1 hsame).1

/-- Functions of one package without receivers have the qualified names that their names tell. -/
theorem qualifiedName_eq_iff_of_plain (hpkg : p.package? pid = some pkg)
    (hhome : f.package = pid) (hhome' : f'.package = pid) (hplain : f.receiver? = none)
    (hplain' : f'.receiver? = none) : p.qualifiedName f = p.qualifiedName f' ↔ f.name = f'.name := by
  rw [qualifiedName_plain hplain (by rwa [hhome]), qualifiedName_plain hplain' (by rwa [hhome'])]
  constructor
  · intro heq
    exact String.append_right_inj _ |>.1 heq
  · intro heq
    rw [heq]

/-- The package in which a function is inside another, and the place that it has there. -/
theorem Reachable.insideAt (h : p.Reachable) (hf : p.function? id = some f)
    (he : f.enclosing = some e) :
    ∃ pkg parent k, p.package? id.package = some pkg ∧ p.function? e = some parent ∧
      pkg.InsideAt id f e parent k := by
  obtain ⟨pkg, hpkg, hfound⟩ := Option.bind_eq_some_iff.1 hf
  obtain ⟨parent, k, hin⟩ := h.nests (package?_mem hpkg) id f e hfound he
  exact ⟨pkg, parent, k, hpkg, h.intact.function?_of_package? hpkg hin.around, hin⟩

/-- Of the functions of one package that are inside others, two have different qualified names if
they are inside one function, or inside functions of different names that have no dot. If they have
no receiver, their qualified names are equal exactly if they have the same place inside functions of
equal names, whatever the receivers of these are. -/
theorem inner_names (diagnostics : Diagnostics) (operations : List Operation) :
    let p := built diagnostics operations
    ∀ id id' f f' e e', p.function? id = some f → p.function? id' = some f' →
      id.package = id'.package → id ≠ id' → f.enclosing = some e → f'.enclosing = some e' →
      ∃ (parent parent' : Function) (k k' : Nat),
        p.function? e = some parent ∧ parent.anonymous[k]? = some id ∧
        p.function? e' = some parent' ∧ parent'.anonymous[k']? = some id' ∧
        (e = e' → p.qualifiedName f ≠ p.qualifiedName f') ∧
        ('.' ∉ parent.name.toList → '.' ∉ parent'.name.toList → parent.name ≠ parent'.name →
          p.qualifiedName f ≠ p.qualifiedName f') ∧
        (f.receiver? = none → f'.receiver? = none →
          (p.qualifiedName f = p.qualifiedName f' ↔ parent.name = parent'.name ∧ k = k')) := by
  intro p id id' f f' e e' hf hf' hpackage hne he he'
  have h : p.Reachable := ⟨diagnostics, operations, rfl⟩
  obtain ⟨pkg, parent, k, hpkg, hparent, hin⟩ := h.insideAt hf he
  obtain ⟨pkg', parent', k', hpkg', hparent', hin'⟩ := h.insideAt hf' he'
  rw [← hpackage, hpkg, Option.some.injEq] at hpkg'
  subst hpkg'
  refine ⟨parent, parent', k, k', hparent, hin.listed, hparent', hin'.listed, ?_, ?_, ?_⟩
  · rintro rfl
    exact qualifiedName_ne_of_siblings h hf hf' hin hin' hne
  · intro hdot hdot' hnames
    exact qualifiedName_ne_of_undotted h hf hf' hin hin' hdot hdot' hnames
  · intro hplain hplain'
    have hhome := h.intact.package_of_function? hf
    have hhome' := (h.intact.package_of_function? hf').trans hpackage.symm
    rw [qualifiedName_eq_iff_of_plain hpkg hhome hhome' hplain hplain']
    exact name_eq_iff_of_insideAt hin hin'

/-- A unit with two types `T` and `other`, and with three functions `f`: two methods, which have
receivers of the types `t` and `u`, and one without a receiver. -/
def namesakes (path short other : String) (t u : Ty) : SourceUnit where
  path := path
  name := short
  importable := true
  error := none
  objects := [.typeName "T" none (.named path "T") (.basic .int) [],
    .typeName other none (.named path other) (.basic .int) [],
    .func "f" none ⟨some ⟨"t", t⟩, [], [], false⟩, .func "f" none ⟨some ⟨"u", u⟩, [], [], false⟩,
    .func "f" none ⟨none, [], [], false⟩]
  scopes := [⟨{}, .ofList [("T", ⟨0⟩), (other, ⟨1⟩), ("f", ⟨4⟩)], []⟩]
  files := [⟨"m.go", [
    .gen .type [.type ⟨"T", some ⟨0⟩, none⟩ {}, .type ⟨other, some ⟨1⟩, none⟩ {}] {},
    .func ⟨⟨"f", some ⟨2⟩, none⟩, some [], [], none, none, {}⟩,
    .func ⟨⟨"f", some ⟨3⟩, none⟩, some [], [], none, none, {}⟩,
    .func ⟨⟨"f", some ⟨4⟩, none⟩, none, [], none, none, {}⟩]⟩]

/-- Two functions inside the first method and one inside the second. -/
def insideNamesakes : List Operation :=
  [.create (namesakes "m" "m" "U" (.named "m" "T") (.named "m" "U")),
    .addAnonymous ⟨0⟩ ⟨⟨0⟩, 1⟩ ⟨none, [], [], false⟩ [],
    .addAnonymous ⟨0⟩ ⟨⟨0⟩, 2⟩ ⟨none, [], [], false⟩ [],
    .addAnonymous ⟨0⟩ ⟨⟨0⟩, 1⟩ ⟨none, [], [], false⟩ []]

theorem inner_names_insideNamesakes :
    let p := built {} insideNamesakes
    ∃ f f' parent parent', p.function? ⟨⟨0⟩, 4⟩ = some f ∧ p.function? ⟨⟨0⟩, 6⟩ = some f' ∧
      p.function? ⟨⟨0⟩, 1⟩ = some parent ∧ p.function? ⟨⟨0⟩, 1⟩ = some parent' ∧
      f.enclosing = some ⟨⟨0⟩, 1⟩ ∧ f'.enclosing = some ⟨⟨0⟩, 1⟩ ∧
      p.qualifiedName f ≠ p.qualifiedName f' := by
  intro p
  obtain ⟨f, f', hf, hf', he, he'⟩ : ∃ f f', p.function? ⟨⟨0⟩, 4⟩ = some f ∧
      p.function? ⟨⟨0⟩, 6⟩ = some f' ∧ f.enclosing = some ⟨⟨0⟩, 1⟩ ∧
      f'.enclosing = some ⟨⟨0⟩, 1⟩ := ⟨_, _, rfl, rfl, rfl, rfl⟩
  obtain ⟨parent, parent', -, -, hparent, -, hparent', -, hsame, -⟩ :=
    inner_names {} insideNamesakes _ _ f f' _ _ hf hf' rfl (by decide) he he'
  exact ⟨f, f', parent, parent', hf, hf', hparent, hparent', he, he', hsame rfl⟩

/-- The functions inside two methods of one name have the same qualified name. -/
theorem inner_names_of_methods :
    let p := built {} insideNamesakes
    (∀ o ∈ (namesakes "m" "m" "U" (.named "m" "T") (.named "m" "U")).objects,
      '$' ∉ o.name.toList) ∧
      ∃ f f' parent parent', p.function? ⟨⟨0⟩, 4⟩ = some f ∧ p.function? ⟨⟨0⟩, 5⟩ = some f' ∧
        f.enclosing = some ⟨⟨0⟩, 1⟩ ∧ f'.enclosing = some ⟨⟨0⟩, 2⟩ ∧
        p.function? ⟨⟨0⟩, 1⟩ = some parent ∧ p.function? ⟨⟨0⟩, 2⟩ = some parent' ∧
        p.qualifiedName parent = "(m.T).f" ∧ p.qualifiedName parent' = "(m.U).f" ∧
        p.qualifiedName f = "m.f$1" ∧ p.qualifiedName f' = "m.f$1" := by
  intro p
  refine ⟨by decide, _, _, _, _, rfl, rfl, rfl, rfl, rfl, rfl, ?_, ?_, ?_, ?_⟩
  · decide
  · decide
  · decide
  · decide

end Program

end TraceDebugger
