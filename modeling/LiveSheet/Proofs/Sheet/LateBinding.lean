import Mathlib
import LiveSheet.Proofs.Sheet.Roster

-- The equations by which `cbv` evaluates a run, of `List.lookup`, `Char.toLower` and others, are in
-- the whole library only. Without it they would be derived here anew.

namespace LiveSheet

theorem isNumeral_of_isDigit {c : Char} (h : c.isDigit = true) : isNumeral c = true := by
  simp only [Char.isDigit, Bool.and_eq_true, decide_eq_true_eq] at h
  exact CodeRanges.has_iff.mpr ⟨(0x30, 0x39), by simp [numeralRanges], h.1, h.2⟩

section Prefixes

variable {cs ds : List Char} {front : String}

theorem isNameStart_of_isDigit {c : Char} (h : c.isDigit = true) : isNameStart c = false := by
  cases hstart : isNameStart c with
  | false => rfl
  | true =>
    have hnumber : startsNumber c = true := by simp [startsNumber, h]
    rw [startsNumber_of_isNameStart hstart] at hnumber
    cases hnumber

/-- No boolean ends in a digit. -/
theorem isBooleanWord_of_digits (digits : ∀ d ∈ ds, d.isDigit = true) (some_digit : ds ≠ []) :
    isBooleanWord (cs ++ ds) = false := by
  obtain ⟨init, d, rfl⟩ : ∃ init d, ds = init ++ [d] :=
    ⟨_, _, (List.dropLast_append_getLast some_digit).symm⟩
  have hd : d.isDigit = true := digits d (by simp)
  have hother : ∀ word : List Char, (∀ e ∈ word.getLast?, e.toLower.isDigit = false) →
      sameLetters (cs ++ (init ++ [d])) word = false := by
    intro word hword
    apply Bool.eq_false_iff.mpr
    intro hsame
    have hlast := congrArg List.getLast? (beq_iff_eq.mp hsame)
    simp only [List.getLast?_map, ← List.append_assoc, List.getLast?_concat, Option.map_some,
      toLower_of_isDigit hd] at hlast
    obtain ⟨e, he, hde⟩ := Option.map_eq_some_iff.mp hlast.symm
    have hnot := hword e he
    rw [hde, hd] at hnot
    cases hnot
  rw [isBooleanWord, hother _ (by simp), hother _ (by simp)]
  rfl

/-- A name can begin in this way, and go on with digits. -/
def beginsName : List Char → Bool
  | [] => false
  | c :: rest => isNameStart c && rest.all isNameChar

/-- Whether a generated name is valid depends on its prefix only. -/
theorem isValidName_generated (front : String) (n : Nat) :
    isValidName (front ++ toString n) = beginsName front.toList := by
  have htext : (front ++ toString n).toList = front.toList ++ Nat.toDigits 10 n := by simp
  have hdigits : ∀ d ∈ Nat.toDigits 10 n, d.isDigit = true := fun d hd =>
    Nat.isDigit_of_mem_toDigits (by decide) (by decide) hd
  have hne : Nat.toDigits 10 n ≠ [] := Nat.toDigits_ne_nil
  have hword : isBooleanWord (front.toList ++ Nat.toDigits 10 n) = false :=
    isBooleanWord_of_digits hdigits hne
  unfold isValidName
  rw [htext]
  cases hfront : front.toList with
  | nil =>
    cases hn : Nat.toDigits 10 n with
    | nil => exact absurd hn hne
    | cons d rest => simp [beginsName, isNameStart_of_isDigit (hdigits d (by simp [hn]))]
  | cons c rest =>
    rw [hfront, List.cons_append] at hword
    have hall : (Nat.toDigits 10 n).all isNameChar = true := by
      refine List.all_eq_true.mpr fun d hd => ?_
      simp [isNameChar, isNumeral_of_isDigit (hdigits d hd)]
    simp [beginsName, hword, hall]

theorem Settings.proper_iff {settings : Settings} :
    settings.Proper ↔ beginsName settings.namePrefix.toList = true := by
  constructor
  · intro h
    rw [← isValidName_generated settings.namePrefix 1]
    exact h 1
  · exact fun h n => (isValidName_generated settings.namePrefix n).trans h

end Prefixes

theorem Settings.default_proper : Settings.default.Proper :=
  proper_iff.mpr (by decide)

namespace Sheet

variable {s : Sheet} {x : CellId} {c : Cell}

/-- What holds of a sheet between operations, texts and names included. -/
structure Kept (settings : Settings) (s : Sheet) : Prop where
  settings_eq : s.settings = settings
  sound : s.Sound
  phrased : s.Phrased
  alert : s.Alert
  grounded : s.Grounded

theorem claimName_settings {t : Sheet} {wanted : Option String} {name : String}
    (h : s.claimName wanted = .ok (name, t)) : t.settings = s.settings := by
  obtain ⟨-, n, rfl⟩ := claimName_ok h
  rfl

/-- No edit changes the settings. -/
theorem Makes.settings_eq {e : Edit} (h : s.Makes e) : e.sheet.settings = s.settings := by
  obtain ⟨given, henrols⟩ := h.enrols
  cases henrols with
  | same roster => exact settings_eq_of_roster roster
  | insert claim roster =>
    have hclaimed := claimName_settings claim
    exact (settings_eq_of_roster roster).trans hclaimed
  | remove roster => exact (settings_eq_of_roster roster :)
  | relabel _ _ _ roster => exact (settings_eq_of_roster roster :)

theorem Makes.kept {settings : Settings} {e : Edit} (h : s.Makes e) (hs : s.Kept settings) :
    e.sheet.Kept settings :=
  ⟨h.settings_eq.trans hs.settings_eq, h.sound hs.sound, h.phrased hs.sound hs.phrased,
    h.alert hs.sound hs.phrased hs.alert, h.grounded hs.sound hs.grounded⟩

theorem Kept.new (settings : Settings) : (Sheet.new settings).Kept settings :=
  ⟨rfl, .new settings, .new settings, .new settings, fun _ _ _ hc => (by cases hc)⟩

/-- A cell that waits for a name has an error: if it has a tree, that names a cell that is gone. -/
theorem hasError_of_unresolved (hs : s.Sound) (hp : s.Phrased) (hg : s.Grounded)
    (hc : s.cell? x = some c) (ht : c.isTable = false) (h : c.unresolved ≠ []) :
    c.hasError = true := by
  cases htree : c.tree? with
  | none =>
    have hstructural := (hs.classified x c hc ht).mp htree
    cases he : c.error with
    | none => simp [Cell.isStructural, he] at hstructural
    | some e => simp [Cell.hasError, he]
  | some tree =>
    cases he : c.error with
    | none => exact absurd (hp x c tree hc htree (hg x c tree hc he htree)).resolved h
    | some e => simp [Cell.hasError, he]

end Sheet

namespace Edit

open Sheet

variable {e : Edit}

theorem waitingFor_nodup (distinct : e.sheet.ids.Nodup) (name : String) :
    (e.waitingFor name).Nodup :=
  distinct.sublist (List.filter_sublist.map Cell.id)

/-- The cells that wait for a name are in error until they are settled, each in its turn. What
settling such a cell keeps holds when all are settled. -/
theorem rebind_waiting (Holds : Edit → Prop) (keeps : ∀ (e : Edit) (w : CellId) (c : Cell),
      e.sheet.Sound → e.sheet.cell? w = some c → c.isTable = false → c.unresolved ≠ [] →
        c.hasError = true → Holds e → Holds (e.applyFormula w))
    (sound : e.sheet.Sound) (phrased : e.sheet.Phrased) (grounded : e.sheet.Grounded)
    (start : Holds e) (name : String) : Holds (e.rebind name) := by
  have hdistinct := waitingFor_nodup sound.indexed.nodup name
  have hwaits : ∀ w ∈ e.waitingFor name, ∃ c, e.sheet.cell? w = some c ∧ c.unresolved ≠ [] := by
    intro w hw
    obtain ⟨c, hc, rfl⟩ := List.mem_map.mp hw
    obtain ⟨hmem, hname⟩ := List.mem_filter.mp hc
    refine ⟨c, cell?_of_mem sound.indexed.nodup hmem, fun hnil => ?_⟩
    simp [hnil] at hname
  unfold rebind
  generalize e.waitingFor name = waiting at hdistinct hwaits
  induction waiting generalizing e with
  | nil => exact start
  | cons w rest ih =>
    obtain ⟨hw, hrest⟩ := List.nodup_cons.mp hdistinct
    rcases applyFormula_cases e w with ⟨c, hc, formula⟩ | ⟨hstay, -⟩
    · obtain ⟨c', hc', hunresolved⟩ := hwaits w (by simp)
      obtain rfl := Option.some.inj (hc.symm.trans hc')
      have herror := hasError_of_unresolved sound phrased grounded hc formula hunresolved
      apply ih (applyFormula_sound (sound.soundBut w) hc formula)
        (applyFormula_phrased (phrased.phrasedBut w) hc formula)
        (applyFormula_grounded hc formula fun x _ => grounded x) _ hrest
      · intro v hv
        obtain ⟨b, hb, hunresolved⟩ := hwaits v (List.mem_cons_of_mem _ hv)
        have hne : v ≠ w := fun he => hw (he ▸ hv)
        obtain ⟨b', hb', hstance⟩ := (applyFormula_others e hne).symm.cell? hb
        exact ⟨b', hb', (Cell.unresolved_eq_of_stance hstance).symm ▸ hunresolved⟩
      · exact keeps e w c sound hc formula hunresolved herror start
    · rw [List.foldl_cons, hstay]
      exact ih sound phrased grounded start hrest fun v hv => hwaits v (List.mem_cons_of_mem _ hv)

end Edit

theorem Session.run_kept (settings : Settings) (operations : List Operation) :
    ((Session.new settings).run operations).sheet.Kept settings :=
  run_invariant (Sheet.Kept settings) (fun _ _ hs h => h.kept hs) (.new settings) operations

/-- After any operations, if generated names are proper ones: no formula waits for the name of a
cell, a formula that waits for a name is in error, and a formula found at fault does not compile. -/
theorem Session.run_waiting (settings : Settings)
    (proper : ∀ n : Nat, isValidName (settings.namePrefix ++ toString n) = true)
    (operations : List Operation) :
    let s := ((Session.new settings).run operations).sheet
    ∀ c ∈ s.cells, c.isTable = false →
      (∀ name ∈ c.unresolved, ∀ d ∈ s.cells, d.name ≠ name) ∧
        (c.unresolved ≠ [] → c.hasError = true) ∧
        (c.errorKind? = some .definition →
          ∃ cause, compile s.resolver c.formula = .error cause) := by
  intro s c hc ht
  have hs : s.Kept settings := run_kept settings operations
  have hcell := Sheet.cell?_of_mem hs.sound.indexed.nodup hc
  have halert := hs.alert.cells c.id c hcell ht
  have hdead : ∀ name ∈ c.unresolved, s.idOf? name = none := fun name hn =>
    halert.dead name hn (by simp)
  refine ⟨?_, Sheet.hasError_of_unresolved hs.sound hs.phrased hs.grounded hcell ht, fun hk => ?_⟩
  · rintro name hn d hd rfl
    have hid := hs.sound.indexed.idOf?_name (Sheet.cell?_of_mem hs.sound.indexed.nodup hd)
    rw [hdead d.name hn] at hid
    cases hid
  · have hhopeless := halert.hopeless (hs.settings_eq ▸ proper) hk
    cases hcompile : compile s.resolver c.formula with
    | error cause => exact ⟨cause, rfl⟩
    | ok tree => exact absurd hcompile (hhopeless s.resolver hdead tree)

set_option maxRecDepth 20000 in
/-- A formula that uses a name of no cell waits for it. -/
theorem Session.run_waiting_unknown :
    (∀ n : Nat, isValidName (Settings.default.namePrefix ++ toString n) = true) ∧
      let s := ((Session.new .default).run [.createCell (some "a") (some "b")]).sheet
      s.cells.map (fun c => (c.unresolved, c.errorKind?)) = [(["b"], some .definition)] ∧
      ∀ c ∈ s.cells, c.isTable = false →
        (∀ name ∈ c.unresolved, ∀ d ∈ s.cells, d.name ≠ name) ∧
          (c.unresolved ≠ [] → c.hasError = true) ∧
          (c.errorKind? = some .definition →
            ∃ cause, compile s.resolver c.formula = .error cause) := by
  refine ⟨Settings.default_proper, by cbv, ?_⟩
  exact run_waiting .default Settings.default_proper [.createCell (some "a") (some "b")]

end LiveSheet
