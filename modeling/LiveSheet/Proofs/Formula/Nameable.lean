import LiveSheet.Proofs.Formula.Resolving

namespace LiveSheet

/-- A name is valid exactly if the formula that is just the name refers to the cell of that name,
where there is one. A valid name is one token wherever it is not part of a longer one, and stands
for a cell or for nothing, never for a value. No formula refers to a cell by an invalid one. -/
theorem isValidName_iff_referable (name : String) :
    (∀ (resolve : Resolver) id, resolve name = some id →
      (isValidName name = true ↔
        ∃ ref, compile resolve name = .ok (.cell ref) ∧ ref.name = name)) ∧
    (isValidName name = true →
      (∀ after : String, EndsAtom after.toList →
        tokenize (name ++ after) = .atom name :: tokenize after) ∧
      ∀ resolve : Resolver,
        (∀ id, resolve name = some id → classifyAtom resolve name = .ok (.cell ⟨id, name⟩) ∧
          compile resolve name = .ok (.cell ⟨id, name⟩)) ∧
        (resolve name = none → classifyAtom resolve name = .error (.unknownCell name) ∧
          compile resolve name = .error (.unknownCell name))) ∧
    (isValidName name = false → ∀ (resolve : Resolver) formula tree,
      compile resolve formula = .ok tree → ∀ ref ∈ tree.refs, ref.name ≠ name) := by
  refine ⟨fun resolve id hid => ⟨fun valid => ?_, ?_⟩, fun valid => ⟨fun after ends => ?_, ?_⟩, ?_⟩
  · exact ⟨_, compile_name (parsePostfix_of_isValidName valid) valid hid, rfl⟩
  · rintro ⟨ref, hcompile, rfl⟩
    exact (resolve_of_mem_refs hcompile List.mem_cons_self).1
  · rw [tokenize, String.toList_append, scan_of_isValidName valid ends]
    rfl
  · intro resolve
    have hpostfix := parsePostfix_of_isValidName valid
    refine ⟨fun id hid => ?_, fun hnone => ?_⟩
    · exact ⟨classifyAtom_of_isValidName valid hid, compile_name hpostfix valid hid⟩
    · exact ⟨classifyAtom_of_unknown valid hnone, compile_unknown hpostfix valid hnone⟩
  · rintro invalid resolve formula tree hcompile ref hr rfl
    have hvalid := (resolve_of_mem_refs hcompile hr).1
    rw [invalid] at hvalid
    cases hvalid

/-- A word that is read as a number elsewhere is a name. -/
theorem isValidName_iff_referable_infinite :
    (readFloat? "inf".toList).isSome = true ∧ isValidName "inf" = true ∧
      (∃ ref, compile (fun _ => some ⟨1⟩) "inf" = .ok (.cell ref) ∧ ref.name = "inf") ∧
      tokenize ("inf" ++ "+1") = .atom "inf" :: tokenize "+1" := by
  have hvalid : isValidName "inf" = true := by decide +kernel
  have hends : EndsAtom "+1".toList := by
    intro c hc
    obtain rfl : '+' = c := Option.some.inj hc
    decide
  obtain ⟨hiff, htoken, -⟩ := isValidName_iff_referable "inf"
  exact ⟨by decide +kernel, hvalid, (hiff (fun _ => some ⟨1⟩) ⟨1⟩ rfl).mp hvalid,
    (htoken hvalid).1 "+1" hends⟩

end LiveSheet
