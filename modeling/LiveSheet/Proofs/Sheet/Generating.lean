import LiveSheet.Proofs.Sheet.Atomicity
import LiveSheet.Proofs.Sheet.Enrolment

namespace LiveSheet

/-- A new cell or table is wanted, whatever its name. -/
inductive Operation.Unnamed : Operation → Prop
  | cell (formula : Option String) : Unnamed (.createCell none formula)
  | table (rows cols : Nat) : Unnamed (.createTable none rows cols)

namespace Sheet

/-- The search for a free name, which counts on from the last number: it ends with the next one if
that makes a free name, and otherwise goes on from there. -/
inductive Searches (s : Sheet) : Nat → Nat → Prop
  | free {last : Nat} (free : s.idOf? (s.generatedName (last + 1)) = none) :
    Searches s last (last + 1)
  | taken {last n : Nat} (taken : (s.idOf? (s.generatedName (last + 1))).isSome = true)
    (later : Searches s (last + 1) n) : Searches s last n

variable {s t : Sheet} {last n : Nat}

/-- The search ends with the first number above the last one that makes a free name. By induction on
how far that is. -/
theorem searches_iff : s.Searches last n ↔ last < n ∧ s.idOf? (s.generatedName n) = none ∧
    ∀ m, last < m → m < n → (s.idOf? (s.generatedName m)).isSome = true := by
  constructor
  · intro h
    induction h with
    | free hfree => exact ⟨Nat.lt_succ_self _, hfree, fun m hm hlt => by omega⟩
    | @taken last n htaken _ ih =>
      obtain ⟨hlt, hfree, hbefore⟩ := ih
      refine ⟨by omega, hfree, fun m hm hmn => ?_⟩
      by_cases hnext : m = last + 1
      · rw [hnext]
        exact htaken
      · exact hbefore m (by omega) hmn
  · rintro ⟨hlt, hfree, hbefore⟩
    obtain ⟨k, rfl⟩ := Nat.exists_eq_add_of_lt hlt
    induction k generalizing last with
    | zero => exact .free hfree
    | succ k ih =>
      have hnext : last + (k + 1) + 1 = last + 1 + k + 1 := by omega
      rw [hnext] at hfree hbefore ⊢
      refine .taken (hbefore _ (by omega) (by omega)) (ih (by omega) hfree fun m hm hmn => ?_)
      exact hbefore m (by omega) hmn

theorem Searches.unique {m : Nat} (h : s.Searches last m) (h' : s.Searches last n) : m = n := by
  induction h with
  | free hfree =>
    cases h' with
    | free => rfl
    | taken htaken _ =>
      rw [hfree] at htaken
      cases htaken
  | taken htaken _ ih =>
    cases h' with
    | free hfree =>
      rw [hfree] at htaken
      cases htaken
    | taken _ later => exact ih later

theorem searches_lastName_iff : s.Searches s.lastName n ↔ n = s.freshNumber := by
  obtain ⟨hmem, hfree, hbefore⟩ := s.freshNumber_spec
  have hfresh : s.Searches s.lastName s.freshNumber :=
    searches_iff.mpr ⟨(List.mem_range'_1.mp hmem).1, hfree, hbefore⟩
  exact ⟨fun h => h.unique hfresh, fun h => h ▸ hfresh⟩

/-- A cell with a generated name comes last, and all others keep their names. -/
theorem labels_of_generated {formula : String} {content : Content}
    (roster : t.roster =
      ({ s with lastName := n }.insertCell (s.generatedName n) formula content).roster) :
    t.lastName = n ∧ t.cells.map (fun c => (c.id, c.name)) =
      s.cells.map (fun c => (c.id, c.name)) ++ [(s.nextId, s.generatedName n)] := by
  have hlabels := congrArg (fun u : Sheet => u.cells.map fun c => (c.id, c.name)) roster
  refine ⟨congrArg Sheet.lastName roster, ?_⟩
  simpa [Sheet.roster, through, Cell.label, Cell.new, insertCell, Function.comp_def, nextId]
    using hlabels

end Sheet

namespace Session

/-- Whoever wants no name for a new cell gets one. -/
theorem perform_unnamed (s : Session) {op : Operation} (unnamed : op.Unnamed) :
    let n := s.sheet.freshNumber
    ∃ formula content, (s.perform op).reply = .created s.sheet.nextId ∧
      (s.perform op).session.sheet.roster =
        ({ s.sheet with lastName := n }.insertCell
          (s.sheet.generatedName n) formula content).roster := by
  intro n
  cases unnamed with
  | cell formula =>
    exact ⟨_, _, rfl, (Edit.rebind_roster _ _).trans (Edit.applyFormula_roster _ _)⟩
  | table rows cols => exact ⟨_, _, rfl, Edit.rebind_roster _ _⟩

/-- After any operations, the search for a free name ends, at the latest when it has passed as many
names as there are cells, with the first number above the last one whose name no cell has. A cell
that is made without a name has the name with this number, and no other name is taken. -/
theorem run_generates (settings : Settings) (operations : List Operation) :
    let session := (new settings).run operations
    let s := session.sheet
    let name := fun n : Nat => settings.namePrefix ++ toString n
    ∃ n, (∀ m, s.Searches s.lastName m ↔ m = n) ∧
      (s.lastName < n ∧ n ≤ s.lastName + s.cells.length + 1) ∧ (∀ c ∈ s.cells, c.name ≠ name n) ∧
      (∀ m, s.lastName < m → m < n → ∃ c ∈ s.cells, c.name = name m) ∧
      ∀ op : Operation, op.Unnamed → (session.perform op).reply = .created s.nextId ∧
        let t := (session.perform op).session.sheet
        t.lastName = n ∧ t.cells.map (fun c => (c.id, c.name)) =
          s.cells.map (fun c => (c.id, c.name)) ++ [(s.nextId, name n)] := by
  intro session s name
  have hs : s.Kept settings := run_kept settings operations
  have hname : s.generatedName = name := by
    funext n
    rw [Sheet.generatedName, hs.settings_eq]
  have hcount : s.names.length = s.cells.length := by
    simpa using (hs.sound.indexed.names_perm (run_listed settings operations)).length_eq
  obtain ⟨hmem, hfree, hbefore⟩ := s.freshNumber_spec
  rw [hname] at hfree hbefore
  obtain ⟨hlast, hbound⟩ := List.mem_range'_1.mp hmem
  refine ⟨s.freshNumber, fun m => Sheet.searches_lastName_iff, ⟨hlast, by omega⟩, ?_, ?_, ?_⟩
  · intro c hc hused
    have hsome := hs.sound.indexed.idOf?_isSome.mpr ⟨c, hc, hused⟩
    rw [hfree] at hsome
    cases hsome
  · exact fun m hm hlt => hs.sound.indexed.idOf?_isSome.mp (hbefore m hm hlt)
  · intro op hop
    obtain ⟨formula, content, hreply, hroster⟩ := session.perform_unnamed hop
    refine ⟨hreply, ?_⟩
    have hlabels := Sheet.labels_of_generated hroster
    rwa [hname] at hlabels

end Session

end LiveSheet
