import TraceDebugger.Proofs.Preorder

/-!
# The local variables of a function

The function of a declaration has one local variable for each variable that is bound in the scope of
the declaration or below it, in the order of the walk, and its table of slots is the inverse of the
list (`Package.Allotted`). This needs nothing of the unit but that its scopes are nested.
-/

namespace TraceDebugger

/-- The declaration `decl`, the first to ask for it, declares the function or method `o` and opens
the scope `r`, which is reached from the package scope. -/
structure SourceUnit.Declares (u : SourceUnit) (decl : FuncDecl) (o : ObjectId)
    (signature : Signature) (r : SourceScopeId) : Prop where
  /-- The object is a function. -/
  object : ∃ name pos, u.object? o = some (.func name pos signature)
  /-- The declaration is the first to ask for the object. -/
  first : Item.firstSource? u.items o = some (.func decl)
  /-- The declaration opens the scope. -/
  scope : decl.scope = some r
  /-- The scope is reached from the package scope. -/
  reached : u.Contains .package r

namespace Program

/-- The function that is made of a declaration has the variables of the scopes in that of the
declaration, whatever operations come later. -/
theorem create_allotted {p : Program} {u : SourceUnit} {id : PackageId} {o : ObjectId}
    {signature : Signature} {decl : FuncDecl} {r : SourceScopeId} (hnested : u.Nested)
    (hdecl : u.Declares decl o signature r) (hnew : p.byIdentity.find? u.path = none)
    (hcreate : (p.create u).result = .ok id) (operations : List Operation) :
    let q := (p.create u).program.run operations
    ∃ pkg fid f, q.package? id = some pkg ∧ pkg.unit = u ∧
      pkg.values.find? o = some (.function fid) ∧ q.function? fid = some f ∧ f.object = some o ∧
      f.signature = signature ∧ pkg.Allotted r f := by
  intro q
  obtain ⟨d, pkg, hb, hpkg, hgrows⟩ := exists_grown_of_create hnew hcreate operations
  have htracks := Draft.tracks_build (Draft.tracks_start id u) hb
  obtain ⟨fid, f, hvalue, hf, hobject, hsignature, -, hallotted⟩ :=
    htracks.exists_allotted hnested (fun _ => hdecl.reached) hdecl.object hdecl.first hdecl.scope
      hpkg hgrows
  exact ⟨pkg, fid, f, hpkg, (htracks.laid_grown hgrows).1, hvalue, hf, hobject, hsignature,
    hallotted⟩

theorem create_allotted_scattered :
    let p : Program := {}
    let u := SourceUnit.scattered
    let q := (p.create u).program.run []
    let signature : Signature := ⟨none, [⟨"x", .basic .int⟩], [], false⟩
    (u.Nested ∧ u.Declares SourceUnit.scatteredDecl ⟨0⟩ signature ⟨2⟩ ∧
      p.byIdentity.find? u.path = none ∧ (p.create u).result = .ok ⟨0⟩) ∧
    ∃ pkg fid f, q.package? ⟨0⟩ = some pkg ∧ pkg.unit = u ∧
      pkg.values.find? ⟨0⟩ = some (.function fid) ∧ q.function? fid = some f ∧
      f.object = some ⟨0⟩ ∧ f.signature = signature ∧ pkg.Allotted ⟨2⟩ f := by
  intro p u q signature
  have hdecl : u.Declares SourceUnit.scatteredDecl ⟨0⟩ signature ⟨2⟩ := by
    refine ⟨⟨"f", none, rfl⟩, rfl, rfl, ?_⟩
    exact SourceUnit.Encloses.contains ⟨rfl, _, rfl, by decide⟩
  have hcreate : (p.create u).result = .ok ⟨0⟩ := rfl
  exact ⟨⟨SourceUnit.nested_scattered, hdecl, rfl, hcreate⟩,
    create_allotted SourceUnit.nested_scattered hdecl rfl hcreate []⟩

end Program

end TraceDebugger
