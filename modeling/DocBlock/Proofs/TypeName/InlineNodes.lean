import DocBlock.Proofs.Error
import DocBlock.TypeName.Resolve

/-! # Inline types that a type name refers to

Resolving an annotation hands back inline types of the annotation, in order and none of them twice
(`resolveExpr_sublist`); a reference to a type parameter drops those in its arguments. An inline type
itself is named after the declaration that the annotation is written on (`resolveExpr_object`,
`resolveExpr_function`). -/

namespace DocBlock

namespace Tree

variable {t : Tree} {table : SymbolTable} {owner node : NodeId} {result : TypeNameResult}

mutual

theorem resolveExpr_sublist : ∀ {type : TypeExpr} {result : TypeNameResult},
    t.resolveExpr table owner type = .ok result → result.anonymous.Sublist type.inlineNodes
  | .intrinsic text, result, h => by
    unfold resolveExpr at h
    cases h
    exact List.nil_sublist _
  | .query text, result, h => by
    unfold resolveExpr at h
    cases h
    exact List.nil_sublist _
  | .other text, result, h => by
    unfold resolveExpr at h
    cases h
    exact List.nil_sublist _
  | .object node, result, h => by
    unfold resolveExpr at h
    obtain ⟨name, -, hresult⟩ := Error.bind_eq_ok.1 h
    cases hresult
    exact List.Sublist.refl _
  | .function node, result, h => by
    unfold resolveExpr at h
    obtain ⟨name, -, hresult⟩ := Error.bind_eq_ok.1 h
    cases hresult
    exact List.Sublist.refl _
  | .union members, result, h => by
    unfold resolveExpr at h
    obtain ⟨results, hresults, hresult⟩ := Error.bind_eq_ok.1 h
    cases hresult
    exact resolveExprs_sublist hresults
  | .array element, result, h => by
    unfold resolveExpr at h
    obtain ⟨inner, hinner, hresult⟩ := Error.bind_eq_ok.1 h
    have hsublist : inner.anonymous.Sublist element.inlineNodes := resolveExpr_sublist hinner
    cases hresult
    exact hsublist
  | .reference name args, result, h => by
    unfold resolveExpr at h
    split at h
    · cases h
      exact List.nil_sublist _
    · obtain ⟨results, hresults, hresult⟩ := Error.bind_eq_ok.1 h
      cases hresult
      exact resolveExprs_sublist hresults

theorem resolveExprs_sublist : ∀ {types : List TypeExpr} {results : List TypeNameResult},
    t.resolveExprs table owner types = .ok results →
      (results.flatMap (·.anonymous)).Sublist (TypeExpr.allInlineNodes types)
  | [], results, h => by
    unfold resolveExprs at h
    cases h
    exact List.Sublist.refl _
  | type :: types, results, h => by
    unfold resolveExprs at h
    obtain ⟨first, hfirst, hrest⟩ := Error.bind_eq_ok.1 h
    obtain ⟨others, hothers, hresults⟩ := Error.bind_eq_ok.1 hrest
    cases hresults
    exact (resolveExpr_sublist hfirst).append (resolveExprs_sublist hothers)

end

/-- The inline types that the type of a declaration refers to are written in its annotation. -/
theorem resolveTypeName_sublist {type : Option TypeExpr} {inferred : Option ResolvedType}
    (h : t.resolveTypeName table owner type inferred = .ok result) :
    result.anonymous.Sublist ((type.map TypeExpr.inlineNodes).getD []) := by
  cases type with
  | none =>
    cases h
    exact List.nil_sublist _
  | some type => exact resolveExpr_sublist h

/-! ## Names of inline types -/

/-- The name of an inline type: the anonymous name, behind the owner when there is one. -/
theorem anonymousFullName_eq {name : String} {member : Option String}
    (hname : t.anonymousName owner = .ok name) (howner : t.ownerName owner = .ok member) :
    t.anonymousFullName owner = .ok (behindOwner member name) := by
  rw [anonymousFullName, howner, hname]
  rfl

theorem resolveExpr_object {name : String} (hname : t.anonymousFullName owner = .ok name)
    (node : NodeId) :
    t.resolveExpr table owner (.object node) =
      .ok { name := TypeName.format name, anonymous := [node] } := by
  rw [resolveExpr, hname]
  rfl

theorem resolveExpr_function {name : String} (hname : t.anonymousFullName owner = .ok name)
    (node : NodeId) :
    t.resolveExpr table owner (.function node) =
      .ok { name := TypeName.format name, anonymous := [node] } := by
  rw [resolveExpr, hname]
  rfl

end Tree

end DocBlock
