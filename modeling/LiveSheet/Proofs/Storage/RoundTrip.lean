import LiveSheet.Proofs.Storage.Replay

namespace LiveSheet

namespace Json

section Strings

variable {c : Char} {cs rest : List Char} {pieces : List Piece} {n : Nat}

theorem hexValue?_hexChar (h : n < 16) : hexValue? (hexChar n) = some n := by
  revert n
  decide

theorem hexUnit?_hexChar (h : n < 0x20) :
    hexUnit? ['0', '0', hexChar (n / 16), hexChar (n % 16)] = some n := by
  have hzero : hexValue? '0' = some 0 := by decide
  have hhigh : hexValue? (hexChar (n / 16)) = some (n / 16) := hexValue?_hexChar (by omega)
  have hlow : hexValue? (hexChar (n % 16)) = some (n % 16) := hexValue?_hexChar (by omega)
  have hsum : 16 * (n / 16) + n % 16 = n := by omega
  simp [hexUnit?, hzero, hhigh, hlow, hsum]

/-- A character is written by a short escape, by its number, or as it is. -/
theorem escapeChar_cases (c : Char) :
    (∃ e, escapeChar c = ['\\', e] ∧ e ≠ 'u' ∧ escapes.lookup e = some c) ∨
      (c.toNat < 0x20 ∧ escapeChar c =
        ['\\', 'u', '0', '0', hexChar (c.toNat / 16), hexChar (c.toNat % 16)]) ∨
      (¬c.toNat < 0x20 ∧ c ≠ '"' ∧ c ≠ '\\' ∧ escapeChar c = [c]) := by
  unfold escapeChar
  split_ifs with hquote hslash hback hfeed hline hreturn htab hcontrol
  · exact .inl ⟨'"', rfl, by decide, by rw [hquote]; rfl⟩
  · exact .inl ⟨'\\', rfl, by decide, by rw [hslash]; rfl⟩
  · exact .inl ⟨'b', rfl, by decide, by rw [hback]; rfl⟩
  · exact .inl ⟨'f', rfl, by decide, by rw [hfeed]; rfl⟩
  · exact .inl ⟨'n', rfl, by decide, by rw [hline]; rfl⟩
  · exact .inl ⟨'r', rfl, by decide, by rw [hreturn]; rfl⟩
  · exact .inl ⟨'t', rfl, by decide, by rw [htab]; rfl⟩
  · exact .inr (.inl ⟨hcontrol, rfl⟩)
  · exact .inr (.inr ⟨hcontrol, hquote, hslash, rfl⟩)

theorem readPieces_escape {e : Char} (short : e ≠ 'u') (h : escapes.lookup e = some c) :
    readPieces ('\\' :: e :: cs) =
      (readPieces cs).map fun (pieces, after) => (.char c :: pieces, after) := by
  rw [readPieces.eq_4 e cs (by simp [short]), h]
  cases readPieces cs <;> rfl

theorem readPieces_unit {a b c d : Char} (h : hexUnit? [a, b, c, d] = some n) :
    readPieces ('\\' :: 'u' :: a :: b :: c :: d :: cs) =
      (readPieces cs).map fun (pieces, after) => (.unit n :: pieces, after) := by
  rw [readPieces, h]
  cases readPieces cs <;> rfl

theorem readPieces_char (printable : ¬c.toNat < 0x20) (quote : c ≠ '"') (slash : c ≠ '\\') :
    readPieces (c :: cs) =
      (readPieces cs).map fun (pieces, after) => (.char c :: pieces, after) := by
  rw [readPieces.eq_5 c cs (by simpa using quote) (by simp [slash]) (by simp [slash])]
  rw [if_neg printable]
  cases readPieces cs <;> rfl

/-- A unit that is no surrogate stands for a character by itself. -/
theorem join_unit (h : n < 0xD800) :
    join (.unit n :: pieces) = (join pieces).map (Char.ofNat n :: ·) := by
  have hhigh : isHighSurrogate n = false := by simp [isHighSurrogate]; omega
  have hlow : isLowSurrogate n = false := by simp [isLowSurrogate]; omega
  cases pieces with
  | nil => simp [join, hhigh, hlow]
  | cons p pieces => cases p <;> simp [join, hhigh, hlow]

/-- What is written for a character is read as one part, which stands for the character. -/
theorem exists_piece (c : Char) : ∃ p : Piece,
    (∀ cs, readPieces (escapeChar c ++ cs) =
      (readPieces cs).map fun (pieces, after) => (p :: pieces, after)) ∧
      ∀ pieces, join (p :: pieces) = (join pieces).map (c :: ·) := by
  rcases escapeChar_cases c with ⟨e, hescape, hshort, hlookup⟩ | ⟨hcontrol, hescape⟩ |
    ⟨hprintable, hquote, hslash, hescape⟩
  · rw [hescape]
    exact ⟨.char c, fun cs => readPieces_escape hshort hlookup, fun pieces => rfl⟩
  · rw [hescape]
    refine ⟨.unit c.toNat, fun cs => readPieces_unit (hexUnit?_hexChar hcontrol), fun pieces => ?_⟩
    rw [join_unit (by omega), Char.ofNat_toNat]
  · rw [hescape]
    exact ⟨.char c, fun cs => readPieces_char hprintable hquote hslash, fun pieces => rfl⟩

theorem readPieces_escaped (cs rest : List Char) : ∃ pieces,
    readPieces (cs.flatMap escapeChar ++ '"' :: rest) = some (pieces, rest) ∧
      join pieces = some cs := by
  induction cs with
  | nil => exact ⟨[], by simp [readPieces], rfl⟩
  | cons c cs ih =>
    obtain ⟨pieces, hread, hjoin⟩ := ih
    obtain ⟨p, hp, hjoinp⟩ := exists_piece c
    refine ⟨p :: pieces, ?_, ?_⟩
    · rw [List.flatMap_cons, List.append_assoc, hp, hread, Option.map_some]
    · rw [hjoinp, hjoin, Option.map_some]

/-- A string is read back as it was, whatever its characters are. -/
theorem readString_quoted (s : String) (rest : List Char) :
    readString (s.toList.flatMap escapeChar ++ '"' :: rest) = some (some s, rest) := by
  obtain ⟨pieces, hread, hjoin⟩ := readPieces_escaped s.toList rest
  rw [readString, hread, Option.map_some]
  simp [hjoin]

end Strings

/-- A value of strings with content, in arrays and objects whose keys have content. -/
inductive Textual : Json → Prop
  | string (s : String) : Textual (.string (some s))
  | array {items : List Json} (items_textual : ∀ item ∈ items, Textual item) :
    Textual (.array items)
  | object {members : List (Option String × Json)}
    (keyed : ∀ member ∈ members, ∃ key, member.1 = some key)
    (values_textual : ∀ member ∈ members, Textual member.2) : Textual (.object members)

section Values

variable {j item : Json} {items : List Json} {key : String} {members : List (Option String × Json)}
  {bound level : Nat} {gap cs rest : List Char}

theorem skipSpace_gap (blank : ∀ c ∈ gap, isSpace c = true) (cs : List Char) :
    skipSpace (gap ++ cs) = skipSpace cs := by
  induction gap with
  | nil => rfl
  | cons c gap ih =>
    have hc := blank c (by simp)
    rw [skipSpace, List.cons_append, List.dropWhile_cons_of_pos hc]
    exact ih fun d hd => blank d (by simp [hd])

theorem isSpace_of_mem_newLine (level : Nat) : ∀ c ∈ newLine level, isSpace c = true := by
  intro c hc
  rcases List.mem_cons.mp hc with rfl | hc
  · rfl
  · rw [(List.mem_replicate.mp hc).2]
    rfl

theorem skipSpace_newLine (level : Nat) (cs : List Char) :
    skipSpace (newLine level ++ cs) = skipSpace cs :=
  skipSpace_gap (isSpace_of_mem_newLine level) cs

theorem readValue_gap (blank : ∀ c ∈ gap, isSpace c = true) (bound : Nat) (cs : List Char) :
    readValue bound (gap ++ cs) = readValue bound cs := by
  cases bound with
  | zero => rfl
  | succ bound => simp only [readValue, skipSpace_gap blank]

theorem readItems_newLine (bound level : Nat) (cs : List Char) :
    readItems bound (newLine level ++ cs) = readItems bound cs := by
  cases bound with
  | zero => rfl
  | succ bound => simp only [readItems, readValue_gap (isSpace_of_mem_newLine level)]

theorem readMembers_newLine (bound level : Nat) (cs : List Char) :
    readMembers bound (newLine level ++ cs) = readMembers bound cs := by
  cases bound with
  | zero => rfl
  | succ bound => simp only [readMembers, skipSpace_newLine]

/-- What is written for a textual value begins with a quote or a bracket. -/
theorem Textual.pretty_begins (h : j.Textual) (level : Nat) : ∃ c cs,
    j.pretty level = c :: cs ∧ (c = '"' ∨ c = '[' ∨ c = '{') := by
  cases h with
  | string s => exact ⟨'"', _, rfl, .inl rfl⟩
  | @array items _ => cases items <;> exact ⟨'[', _, rfl, .inr (.inl rfl)⟩
  | @object members _ _ => cases members <;> exact ⟨'{', _, rfl, .inr (.inr rfl)⟩

/-- The value is read from any text that begins with what is written for it. -/
def ReadsBack (j : Json) : Prop :=
  ∀ level bound rest, (j.pretty level).length ≤ bound →
    readValue bound (j.pretty level ++ rest) = some (j, rest)

/-- Each item takes up at least the comma before it, so the bound lasts. -/
theorem readItems_written (reads : ∀ j ∈ item :: items, ReadsBack j) (level outer : Nat)
    (rest : List Char)
    (enough : (item.pretty level).length + (prettyItems level items).length < bound) :
    readItems bound (item.pretty level ++ (prettyItems level items ++
      (newLine outer ++ ']' :: rest))) = some (item :: items, rest) := by
  induction items generalizing item bound with
  | nil =>
    obtain ⟨bound, rfl⟩ : ∃ b, bound = b + 1 := ⟨bound - 1, by omega⟩
    have hread := reads item (by simp) level bound (newLine outer ++ ']' :: rest) (by omega)
    have hclose : skipSpace (newLine outer ++ ']' :: rest) = ']' :: rest := skipSpace_newLine ..
    simp [readItems, prettyItems, hread, hclose]
  | cons next items ih =>
    obtain ⟨bound, rfl⟩ : ∃ b, bound = b + 1 := ⟨bound - 1, by omega⟩
    simp only [prettyItems, List.length_append, List.length_cons] at enough
    let tail := newLine outer ++ ']' :: rest
    have hread := reads item (by simp) level bound (prettyItems level (next :: items) ++ tail)
      (by omega)
    have hcomma : skipSpace (prettyItems level (next :: items) ++ tail) =
        ',' :: (newLine level ++ (next.pretty level ++ (prettyItems level items ++ tail))) := by
      simp only [prettyItems, List.append_assoc, List.cons_append]
      rfl
    have hreads : ∀ j ∈ next :: items, ReadsBack j := fun j hj =>
      reads j (List.mem_cons_of_mem _ hj)
    have hnext : (next.pretty level).length + (prettyItems level items).length < bound := by omega
    have htail := ih hreads hnext
    rw [← readItems_newLine bound level] at htail
    simp [readItems, hread, hcomma, tail, htail]

theorem skipSpace_bracket {c : Char} (h : c = '"' ∨ c = '[' ∨ c = '{') :
    skipSpace (c :: cs) = c :: cs := by
  rcases h with rfl | rfl | rfl <;> rfl

theorem quoted_append (s : String) (cs : List Char) :
    quoted s ++ cs = '"' :: (s.toList.flatMap escapeChar ++ '"' :: cs) := by
  rw [quoted, List.cons_append, List.cons_append, List.append_assoc, List.singleton_append]

theorem skipSpace_quoted (s : String) (cs : List Char) : skipSpace (quoted s ++ cs) =
    '"' :: (s.toList.flatMap escapeChar ++ '"' :: cs) := by
  rw [quoted_append, skipSpace_bracket (.inl rfl)]

theorem readMembers_written {value : Json}
    (keyed : ∀ member ∈ members, ∃ k, member.1 = some k)
    (reads : ∀ member ∈ (some key, value) :: members, ReadsBack member.2) (level outer : Nat)
    (rest : List Char)
    (enough : (value.pretty level).length + (prettyMembers level members).length < bound) :
    readMembers bound (quoted key ++ (':' :: ' ' :: (value.pretty level ++
      (prettyMembers level members ++ (newLine outer ++ '}' :: rest))))) =
        some ((some key, value) :: members, rest) := by
  have hcolon : ∀ cs, skipSpace (':' :: cs) = ':' :: cs := fun cs => rfl
  have hspace : ∀ c ∈ [' '], isSpace c = true := by simp [isSpace]
  have hblank : ∀ bound cs, readValue bound (' ' :: cs) = readValue bound cs :=
    readValue_gap hspace
  induction members generalizing key value bound with
  | nil =>
    obtain ⟨bound, rfl⟩ : ∃ b, bound = b + 1 := ⟨bound - 1, by omega⟩
    have hreads : ReadsBack value := reads (some key, value) (by simp)
    have hread := hreads level bound (newLine outer ++ '}' :: rest) (by omega)
    have hclose : skipSpace (newLine outer ++ '}' :: rest) = '}' :: rest := skipSpace_newLine ..
    simp [readMembers, prettyMembers, skipSpace_quoted, readString_quoted, hcolon, hblank, hread,
      hclose]
  | cons next members ih =>
    obtain ⟨bound, rfl⟩ : ∃ b, bound = b + 1 := ⟨bound - 1, by omega⟩
    obtain ⟨k, next⟩ := next
    obtain ⟨nextKey, rfl⟩ : ∃ key, k = some key := keyed (k, next) (by simp)
    simp only [prettyMembers, List.length_append, List.length_cons] at enough
    let tail := newLine outer ++ '}' :: rest
    have hreads : ReadsBack value := reads (some key, value) (by simp)
    have hread := hreads level bound (prettyMembers level ((some nextKey, next) :: members) ++ tail)
      (by omega)
    have hcomma : skipSpace (prettyMembers level ((some nextKey, next) :: members) ++ tail) =
        ',' :: (newLine level ++ (quoted nextKey ++ (':' :: ' ' :: (next.pretty level ++
          (prettyMembers level members ++ tail))))) := by
      simp only [prettyMembers, List.append_assoc, List.cons_append, Option.getD_some]
      rfl
    have hkeyed : ∀ member ∈ members, ∃ k, member.1 = some k := fun member hm =>
      keyed member (List.mem_cons_of_mem _ hm)
    have hnexts : ∀ member ∈ (some nextKey, next) :: members, ReadsBack member.2 :=
      fun member hm => reads member (List.mem_cons_of_mem _ hm)
    have hnext : (next.pretty level).length + (prettyMembers level members).length < bound := by
      omega
    have htail := ih hkeyed hnexts hnext
    rw [← readMembers_newLine bound level] at htail
    simp [readMembers, skipSpace_quoted, readString_quoted, hcolon, hblank, hread, hcomma, tail,
      htail]

theorem readValue_items {c : Char} (begins : skipSpace cs = c :: rest) (more : c ≠ ']') :
    readValue (bound + 1) ('[' :: cs) =
      (readItems bound (c :: rest)).map fun (items, rest) => (.array items, rest) := by
  have hskip : skipSpace ('[' :: cs) = '[' :: cs := rfl
  simp only [readValue, hskip, begins]
  split
  next h => exact absurd (List.cons.inj h).1 more
  next => rfl

theorem readValue_members {c : Char} (begins : skipSpace cs = c :: rest) (more : c ≠ '}') :
    readValue (bound + 1) ('{' :: cs) =
      (readMembers bound (c :: rest)).map fun (members, rest) => (.object members, rest) := by
  have hskip : skipSpace ('{' :: cs) = '{' :: cs := rfl
  simp only [readValue, hskip, begins]
  split
  next h => exact absurd (List.cons.inj h).1 more
  next => rfl

/-- A textual value is read back from what is written for it, and the text behind that is left. -/
theorem Textual.readsBack (h : j.Textual) : j.ReadsBack := by
  induction h with
  | string s =>
    intro level bound rest enough
    simp only [pretty, quoted, List.cons_append, List.length_cons] at enough
    obtain ⟨bound, rfl⟩ : ∃ b, bound = b + 1 := ⟨bound - 1, by omega⟩
    simp [readValue, pretty, skipSpace_quoted, readString_quoted]
  | @array items textual ih =>
    intro level bound rest enough
    cases items with
    | nil =>
      obtain ⟨bound, rfl⟩ : ∃ b, bound = b + 1 := ⟨bound - 1, by simp [pretty] at enough; omega⟩
      rfl
    | cons item items =>
      simp only [pretty, List.length_append, List.length_cons] at enough
      obtain ⟨bound, rfl⟩ : ∃ b, bound = b + 1 := ⟨bound - 1, by omega⟩
      have hitems := readItems_written ih (level + 1) level rest (by omega : _ < bound)
      have htext : pretty level (.array (item :: items)) ++ rest =
          '[' :: (newLine (level + 1) ++ (item.pretty (level + 1) ++
            (prettyItems (level + 1) items ++ (newLine level ++ ']' :: rest)))) := by
        simp [pretty]
      obtain ⟨c, cs, hc, hbracket⟩ := (textual item (by simp)).pretty_begins (level + 1)
      have hspace : skipSpace (c :: (cs ++ (prettyItems (level + 1) items ++
          (newLine level ++ ']' :: rest)))) = _ := skipSpace_bracket hbracket
      rw [hc, List.cons_append] at hitems htext
      rw [htext, readValue_items ((skipSpace_newLine _ _).trans hspace), hitems]
      · rfl
      · rcases hbracket with rfl | rfl | rfl <;> decide
  | @object members keyed textual ih =>
    intro level bound rest enough
    cases members with
    | nil =>
      obtain ⟨bound, rfl⟩ : ∃ b, bound = b + 1 := ⟨bound - 1, by simp [pretty] at enough; omega⟩
      rfl
    | cons member members =>
      obtain ⟨k, value⟩ := member
      obtain ⟨key, rfl⟩ : ∃ key, k = some key := keyed (k, value) (by simp)
      simp only [pretty, List.length_append, List.length_cons] at enough
      obtain ⟨bound, rfl⟩ : ∃ b, bound = b + 1 := ⟨bound - 1, by omega⟩
      have hkeyed : ∀ member ∈ members, ∃ k, member.1 = some k := fun member hm =>
        keyed member (List.mem_cons_of_mem _ hm)
      have hmembers := readMembers_written hkeyed ih (level + 1) level rest (by omega : _ < bound)
      have htext : pretty level (.object ((some key, value) :: members)) ++ rest =
          '{' :: (newLine (level + 1) ++ (quoted key ++ (':' :: ' ' ::
            (value.pretty (level + 1) ++ (prettyMembers (level + 1) members ++
              (newLine level ++ '}' :: rest)))))) := by
        simp [pretty]
      rw [quoted_append] at hmembers htext
      rw [htext, readValue_members ((skipSpace_newLine _ _).trans (skipSpace_bracket (.inl rfl)))
        (by decide), hmembers]
      rfl

theorem parse?_pretty (h : j.Textual) : parse? (String.ofList (j.pretty 0)) = some j := by
  have hread := h.readsBack 0 ((j.pretty 0).length + 1) [] (Nat.le_succ _)
  rw [List.append_nil] at hread
  rw [parse?, String.toList_ofList, String.length_ofList, hread]
  rfl

end Values

end Json

namespace Document

variable {d : Document} {r : Record}

theorem recordToJson_textual (r : Record) : (recordToJson r).Textual := by
  refine .object ?_ ?_ <;> simp [Json.Textual.string]

theorem toJson_textual (d : Document) : d.toJson.Textual := by
  have hcells : (Json.array (d.cells.map recordToJson)).Textual := by
    refine .array fun item hitem => ?_
    obtain ⟨r, -, rfl⟩ := List.mem_map.mp hitem
    exact recordToJson_textual r
  refine .object ?_ ?_ <;> simp [Json.Textual.string, hcells]

theorem recordOfJson?_recordToJson (r : Record) : recordOfJson? (recordToJson r) = some r := by
  simp [recordOfJson?, recordToJson, Json.fields?, Json.field?, Json.text?]

theorem ofJson?_toJson (d : Document) : ofJson? d.toJson = some d := by
  have hcells : (d.cells.map recordToJson).mapM recordOfJson? = some d.cells := by
    induction d.cells with
    | nil => rfl
    | cons r rest ih => simp [recordOfJson?_recordToJson, ih]
  simp [ofJson?, toJson, Json.fields?, Json.field?, Json.text?, Json.items?, hcells]

/-- A document is read from its text, whatever the names and formulas in it are. -/
theorem parse?_render (d : Document) : parse? d.render = some d := by
  rw [parse?, render, Json.parse?_pretty d.toJson_textual, Option.bind_some, ofJson?_toJson]

end Document

/-- What is stored of a sheet can be restored, if generated names are proper ones. -/
theorem Sheet.Kept.restorable {s : Sheet} {settings : Settings} (h : s.Kept settings)
    (proper : settings.Proper) : Restorable (Document.ofSheet s).cells := by
  have hindexed := h.sound.indexed
  have hvalid : ∀ c ∈ s.cells, isValidName c.name = true := fun c hc =>
    h.alert.named (h.settings_eq ▸ proper) c.id c (cell?_of_mem hindexed.nodup hc)
  have hdistinct : (s.cells.map Cell.name).Nodup := by
    have hnodup : s.cells.Nodup := .of_map Cell.id hindexed.nodup
    refine hnodup.map_on fun c hc d hd hname => ?_
    exact hindexed.eq_of_name (cell?_of_mem hindexed.nodup hc)
      (cell?_of_mem hindexed.nodup hd) hname
  have hsub : ((s.cells.filter fun c => !c.isTable).map Cell.name).Sublist
      (s.cells.map Cell.name) := List.filter_sublist.map Cell.name
  refine ⟨fun r hr => ?_, ?_⟩
  · obtain ⟨c, hc, rfl⟩ := List.mem_map.mp hr
    exact hvalid c (List.mem_filter.mp hc).1
  · rw [Document.ofSheet, List.map_map]
    exact hdistinct.sublist hsub

/-- After any operations, the text that is stored of a sheet is read as a sheet of which the same
document and the same text is stored. -/
theorem Session.run_toText (operations : List Operation) :
    let s := ((Session.new .default).run operations).sheet
    ∃ t, Sheet.ofText s.toText = .ok t ∧ Document.ofSheet t = Document.ofSheet s ∧
      t.toText = s.toText := by
  intro s
  have hs : s.Kept .default := run_kept .default operations
  have htag : (Document.ofSheet s).evaluator = Settings.default.evaluator :=
    congrArg Settings.evaluator hs.settings_eq
  obtain ⟨t, ht, hdocument, -⟩ :=
    Document.restoreWith_of_restorable htag (hs.restorable Settings.default_proper)
  refine ⟨t, ?_, hdocument, congrArg Document.render hdocument⟩
  rw [Sheet.ofText, Sheet.toText, Document.parse?_render]
  exact ht

end LiveSheet
