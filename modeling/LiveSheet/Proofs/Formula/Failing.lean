import LiveSheet.Proofs.Formula.Resolving

namespace LiveSheet

section Building

variable {resolve other : Resolver} {stack others : List Expr} {cause : FormulaError}

/-- An atom that is at fault is so under any resolver, if it is no name or stands for nothing. -/
theorem classifyAtom_error_under {s : String} (h : classifyAtom resolve s = .error cause)
    (missing : ∀ name, cause = .unknownCell name → other name = none) :
    classifyAtom other s = .error cause := by
  unfold classifyAtom at h ⊢
  dsimp only at h ⊢
  split_ifs at h ⊢ with hquote htrue hfalse hnumber hname
  · exact h
  · exact h
  · exact h
  · cases hr : resolve s with
    | some id => rw [hr] at h; cases h
    | none =>
      rw [hr] at h
      rw [missing s (Except.error.inj h).symm]
      exact h

/-- What fails on one of two stacks of the same shape fails on the other, if its shape is all that
matters. -/
theorem push_error_of_skeleton (push : List Expr → Except FormulaError (List Expr))
    (blind : ∀ stack, push (stack.map Expr.skeleton) = (push stack).map (List.map Expr.skeleton))
    (alike : stack.map Expr.skeleton = others.map Expr.skeleton) (h : push stack = .error cause) :
    push others = .error cause := by
  have hmap : (push others).map (List.map Expr.skeleton) = .error cause := by
    rw [← blind, ← alike, blind, h]
    rfl
  cases hp : push others with
  | ok others' => rw [hp] at hmap; cases hmap
  | error cause' => rw [hp] at hmap; exact congrArg Except.error (Except.error.inj hmap)

/-- What fails after a step on one of two stacks fails after it on the other, if the step only looks
at their shape. -/
theorem bind_push_error {next next' : List Expr → Except FormulaError (List Expr)}
    (push : List Expr → Except FormulaError (List Expr))
    (blind : ∀ stack, push (stack.map Expr.skeleton) = (push stack).map (List.map Expr.skeleton))
    (alike : stack.map Expr.skeleton = others.map Expr.skeleton)
    (later : ∀ stack₁ {others₁ : List Expr},
      stack₁.map Expr.skeleton = others₁.map Expr.skeleton →
        next stack₁ = .error cause → next' others₁ = .error cause)
    (h : push stack >>= next = .error cause) : push others >>= next' = .error cause := by
  rcases Except.of_bind_eq_error h with h | ⟨stack₁, hp, h⟩
  · rw [push_error_of_skeleton push blind alike h]
    rfl
  · obtain ⟨others₁, ho, halike⟩ := push_skeleton push blind alike.symm hp
    rw [ho]
    exact later stack₁ halike.symm h

variable (known : ∀ name, resolve name ≠ none → other name ≠ none)
  (missing : ∀ name, cause = .unknownCell name → other name = none)
include known

/-- What one resolver builds another one builds that knows more names, up to references. -/
theorem buildFrom_ok_under {tokens : List Token} {stack' : List Expr}
    (h : buildFrom resolve [] tokens = .ok stack') : ∃ others',
      buildFrom other [] tokens = .ok others' ∧
        others'.map Expr.skeleton = stack'.map Expr.skeleton := by
  rw [← Token.map_mapAtom_id tokens] at h
  have hatoms : ∀ s e, classifyAtom resolve (id s) = .ok e →
      ShapedLike other s e (resolve (id s)) :=
    fun s e he => classifyAtom_skeleton he
  refine (buildFrom_skeleton rfl hatoms h).resolve_right ?_
  rintro ⟨name, -, hnone, hsome⟩
  exact known name (Option.isSome_iff_ne_none.mp hsome) hnone

include missing

theorem buildFrom_error_under {tokens : List Token}
    (alike : stack.map Expr.skeleton = others.map Expr.skeleton)
    (h : buildFrom resolve stack tokens = .error cause) :
    buildFrom other others tokens = .error cause := by
  fun_induction buildFrom resolve stack tokens generalizing others with
  | case1 => cases h
  | case2 stack name count rest ih =>
    exact bind_push_error (fun stack => pushCall stack name count)
      (fun stack => pushCall_mapRefs stack name count) alike ih h
  | case3 stack name rest hrest =>
    cases rest with
    | nil => exact h
    | cons t ts =>
      cases t with
      | argCount count => exact absurd rfl (hrest count ts)
      | _ => exact h
  | case4 stack s rest ih =>
    rw [buildFrom]
    rcases Except.of_bind_eq_error h with h | ⟨e, he, h⟩
    · rw [classifyAtom_error_under h missing]
      rfl
    · rcases classifyAtom_skeleton he with ⟨e', he', hskeleton⟩ | ⟨-, hnone, hsome⟩
      · rw [he']
        exact ih e (by simp [hskeleton, alike]) h
      · exact absurd hnone (known s (Option.isSome_iff_ne_none.mp hsome))
  | case5 stack s rest ih => exact ih (by simp [alike]) h
  | case6 stack symbol rest ih =>
    exact bind_push_error (fun stack => pushOperator stack symbol)
      (fun stack => pushOperator_mapRefs stack symbol) alike ih h
  | case7 stack rest ih => exact bind_push_error pushAccess pushAccess_mapRefs alike ih h
  | case8 stack t rest hcall hfunction hatom htext hoperator haccess =>
    cases t with
    | function name => exact absurd rfl (hfunction name)
    | atom s => exact absurd rfl (hatom s)
    | text s => exact absurd rfl (htext s)
    | operator symbol => exact absurd rfl (hoperator symbol)
    | tableAccess => exact absurd rfl haccess
    | _ => exact h

theorem buildTree_error_under {tokens : List Token} (h : buildTree resolve tokens = .error cause) :
    buildTree other tokens = .error cause := by
  unfold buildTree at h
  split at h
  next cause' hb =>
    cases h
    rw [buildTree, buildFrom_error_under known missing rfl hb]
  next hb =>
    obtain ⟨others, ho, halike⟩ := buildFrom_ok_under known hb
    obtain rfl := List.map_eq_nil_iff.mp halike
    rw [buildTree, ho]
    exact h
  next => cases h
  next stack hempty hsingle hb =>
    obtain ⟨others, ho, halike⟩ := buildFrom_ok_under known hb
    have hlength : others.length = stack.length := by simpa using congrArg List.length halike
    rw [buildTree, ho]
    rcases others with _ | ⟨a, _ | ⟨b, others⟩⟩
    · exact absurd (List.length_eq_zero_iff.mp hlength.symm) hempty
    · obtain ⟨e, he⟩ := List.length_eq_one_iff.mp hlength.symm
      exact absurd he (hsingle e)
    · exact h

/-- A formula fails for the same cause where more names stand for cells, unless that is one of
them. -/
theorem compile_error_under {formula : String} (h : compile resolve formula = .error cause) :
    compile other formula = .error cause := by
  rcases Except.of_bind_eq_error h with h | ⟨tokens, hp, h⟩
  · rw [compile, h]
    rfl
  · rw [compile, hp]
    exact buildTree_error_under known missing h

end Building

end LiveSheet
