import LiveSheet.Proofs.Sheet.Legible
import LiveSheet.Proofs.Sheet.Sparing

namespace LiveSheet

open Relation

namespace CellEvent

/-- The profile with what the event brings in place of what it had. -/
def overwrite (p : Profile) : CellEvent → Profile
  | .valueChanged v => { p with value := v }
  | .errorChanged error => { p with error := error }
  | .formulaChanged formula => { p with formula := formula }
  | .nameChanged _ new => { p with name := new }
  | .tableChanged _ _ | .deleteRequested => p

/-- What the event brings is not what the profile has: another value, an error of another kind or
with another message, another text. -/
def News (p : Profile) : CellEvent → Prop
  | .valueChanged v => (p.value == v) = false
  | .errorChanged error => p.error.map CellError.facts ≠ error.map CellError.facts
  | .formulaChanged formula => p.formula ≠ formula
  | .nameChanged old new => p.name = old ∧ old ≠ new
  | .tableChanged _ _ | .deleteRequested => True

end CellEvent

/-- Events that turn a profile into another one, each of which brings news. -/
inductive Story : Profile → List CellEvent → Profile → Prop
  | still (p : Profile) : Story p [] p
  | told {p q : Profile} {event : CellEvent} {events : List CellEvent} (news : event.News p)
    (rest : Story (event.overwrite p) events q) : Story p (event :: events) q

namespace Story

variable {p q r : Profile} {event : CellEvent} {events front rest : List CellEvent}

theorem append (h : Story p events q) (h' : Story q rest r) : Story p (events ++ rest) r := by
  induction h with
  | still => exact h'
  | told news _ ih => exact .told news (ih h')

theorem one (news : event.News p) (brings : event.overwrite p = q) : Story p [event] q :=
  .told news (brings ▸ .still _)

theorem foldl_eq (h : Story p events q) : events.foldl CellEvent.overwrite p = q := by
  induction h with
  | still => rfl
  | told _ _ ih => exact ih

theorem news (h : Story p (front ++ event :: rest) q) :
    event.News (front.foldl CellEvent.overwrite p) := by
  induction front generalizing p with
  | nil =>
    cases h with
    | told news => exact news
  | cons first front ih =>
    cases h with
    | told _ h => exact ih h

end Story

namespace Edit

open Sheet

variable {e e' e₁ e₂ e₃ : Edit} {id x : CellId} {c : Cell}

/-- A cell that is there stays there, and those who watch it were told the story of it. -/
def Reports (e e' : Edit) (x : CellId) : Prop :=
  ∀ c, e.sheet.cell? x = some c → ∃ d events, e'.sheet.cell? x = some d ∧
    e'.eventsOf x = e.eventsOf x ++ events ∧ Story c.profile events d.profile

theorem Reports.refl (e : Edit) (x : CellId) : Reports e e x :=
  fun c hc => ⟨c, [], hc, (List.append_nil _).symm, .still _⟩

theorem Reports.trans (h : Reports e₁ e₂ x) (h' : Reports e₂ e₃ x) : Reports e₁ e₃ x := by
  intro b hb
  obtain ⟨c, first, hc, hfirst, hstory⟩ := h b hb
  obtain ⟨d, second, hd, hsecond, hstory'⟩ := h' c hc
  refine ⟨d, first ++ second, hd, ?_, hstory.append hstory'⟩
  rw [hsecond, hfirst, List.append_assoc]

theorem Reports.of_quiet (changes : e'.changes = e.changes)
    (cells : ∀ c, e.sheet.cell? x = some c →
      ∃ d, e'.sheet.cell? x = some d ∧ d.profile = c.profile) : Reports e e' x := by
  intro c hc
  obtain ⟨d, hd, hprofile⟩ := cells c hc
  refine ⟨d, [], hd, ?_, hprofile ▸ .still _⟩
  rw [eventsOf, changes, List.append_nil]
  rfl

/-- A cell is changed, and those who watch it are told. -/
theorem Reports.of_told (e e' : Edit) (f : Cell → Cell) (event : CellEvent)
    (hc : e.sheet.cell? id = some c)
    (changes : e'.changes = e.changes) (here : e'.sheet.cell? id = some (f c))
    (others : ∀ x, x ≠ id → e'.sheet.cell? x = e.sheet.cell? x) (news : event.News c.profile)
    (brings : event.overwrite c.profile = (f c).profile) (x : CellId) :
    Reports e (e'.announce id event) x := by
  intro d hd
  have hevents : (e'.announce id event).eventsOf x =
      e.eventsOf x ++ if id = x then [event] else [] := by
    rw [eventsOf_announce, eventsOf, changes]
    rfl
  by_cases hx : id = x
  · subst x
    obtain rfl := Option.some.inj (hc.symm.trans hd)
    rw [if_pos rfl] at hevents
    exact ⟨f c, [event], here, hevents, .one news brings⟩
  · rw [if_neg hx] at hevents
    exact ⟨d, [], (others x (Ne.symm hx)).trans hd, hevents, .still _⟩

theorem reports_modify (f : Cell → Cell) (event : CellEvent) (hid : ∀ c, (f c).id = c.id)
    (hc : e.sheet.cell? id = some c) (news : event.News c.profile)
    (brings : event.overwrite c.profile = (f c).profile) (x : CellId) :
    Reports e ((e.modify id f).announce id event) x :=
  .of_told e (e.modify id f) f event hc rfl (modify_cell? hid hc)
    (fun _ hx => cell?_modify_ne hid e.sheet hx) news brings x

theorem Touches.reports (h : Touches e e') (legible : e.sheet.Legible) (x : CellId) :
    Reports e e' x := by
  cases h with
  | quiet quiet =>
    refine .of_quiet rfl fun c hc => ⟨_, ?_, quiet.profile c⟩
    change (e.sheet.through _).cell? x = _
    rw [cell?_through quiet.id, hc, Option.map_some]
  | @value _ _ v hc news =>
    exact reports_modify (fun c => { c with value := v }) (.valueChanged v) (fun _ => rfl) hc news
      rfl x
  | @error _ c error hc news raised =>
    have hnews : c.error.map CellError.facts ≠ error.map CellError.facts :=
      mt (CellError.map_facts_injective (legible.errors _ c · hc) (raised.legible legible)) news
    exact reports_modify (fun c => { c with error := error }) (.errorChanged error) (fun _ => rfl)
      hc hnews rfl x
  | @formula _ _ formula hc news =>
    exact reports_modify (fun c => { c with formula := formula }) (.formulaChanged formula)
      (fun _ => rfl) hc news rfl x

theorem Becomes.reports (h : Becomes e e') (indexed : e.sheet.Indexed)
    (legible : e.sheet.Legible) (x : CellId) : Reports e e' x := by
  induction h with
  | refl => exact .refl e x
  | tail before touches ih =>
    exact ih.trans (touches.reports (Becomes.legible before indexed legible) x)

end Edit

namespace Sheet

open Edit

variable {s : Sheet} {x : CellId} {gone : Option CellId} {e : Edit}

/-- Those who watch another cell than the removed one are told what becomes of it. -/
theorem Opens.reports (h : s.Opens gone e) (indexed : s.Indexed) (hx : gone ≠ some x) :
    Reports s.unchanged e x := by
  cases h with
  | same => exact .refl _ x
  | @insert wanted name t content claim formula =>
    refine .of_quiet rfl fun c hc => ⟨c, ?_, rfl⟩
    have hold : t.cell? x = some c := by
      obtain ⟨-, n, rfl⟩ := claimName_ok claim
      exact hc
    have hne : x ≠ t.nextId := by
      rintro rfl
      rw [(indexed.claim claim).cell?_nextId] at hold
      cases hold
    exact ((indexed.claim claim).cell?_insertCell_other name formula content hne).trans hold
  | @remove c _ removes =>
    have hne : x ≠ c.id := fun he => hx (he ▸ removes)
    intro b hb
    have hcell : s.cell? x = some b := hb
    refine ⟨Cell.detach c b, [], ?_, ?_, ?_⟩
    · change (s.removeCell c).cell? x = _
      rw [cell?_removeCell, if_neg hne, hcell, Option.map_some]
    · rw [eventsOf_announce, if_neg hne.symm, List.append_nil, List.append_nil]
      rfl
    · rw [Cell.detach_profile]
      exact .still _
  | @relabel c new hc _ free =>
    have hne : c.name ≠ new := by
      intro he
      rw [← he, indexed.idOf?_name hc] at free
      cases free
    exact .of_told s.unchanged (s.relabel c.id c.name new).unchanged
      (fun d => { d with name := new }) (.nameChanged c.name new) hc rfl
      (cell?_relabel_self hc c.name new) (fun x hx => cell?_relabel_ne s hx c.name new) ⟨rfl, hne⟩
      rfl x
  | regrid hc grid =>
    exact reports_modify (fun c => { c with content := .table grid })
      (.tableChanged grid.rows grid.cols) (fun _ => rfl) hc trivial rfl x

theorem Runs.reports (h : s.Runs gone e) (sound : s.Sound) (legible : s.Legible)
    (hx : gone ≠ some x) : Reports s.unchanged e x := by
  obtain ⟨start, hopens, hbecomes⟩ := h
  exact (hopens.reports sound.indexed hx).trans
    (hbecomes.reports (hopens.indexed sound.indexed) (hopens.legible sound legible) x)

end Sheet

end LiveSheet
