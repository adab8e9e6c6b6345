import Gatehouse.Proofs.Json.Soundness
import Gatehouse.Proofs.Session.Codec
import Gatehouse.Proofs.Todo.Codec

set_option autoImplicit false

/-!
# Records as they are written

What the fields of an object must say for it to be read as a to-do item, a notice or a session.
Each name that counts does so wherever it stands, and nothing else in the object does.
-/

namespace Gatehouse

open Json

variable {json : Json} {fields fields' : List (String × Json)}

/-- The fields say an item: `completed` may be left out and is false then. -/
structure TodoItem.WrittenIn (item : TodoItem) (fields : List (String × Json)) : Prop where
  id : Once "id" (.natural item.id.toNat) fields
  title : Once "title" (.ofText item.title) fields
  time : Once "time" (.ofText item.time) fields
  content : Once "content" (.ofText item.content) fields
  completed : Once "completed" (.bool item.completed) fields ∨
    Absent "completed" fields ∧ item.completed = false

namespace TodoItem

variable {item : TodoItem}

theorem ofJson?_eq_some_iff :
    ofJson? json = some item ↔
      ∃ find, json.record? ["id", "title", "time", "content", "completed"] 4 = some find ∧
        (find "id").bind word? = some item.id ∧ (find "title").bind text? = some item.title ∧
        (find "time").bind text? = some item.time ∧
        (find "content").bind text? = some item.content ∧
        (find "completed").elim (some false) bool? = some item.completed := by
  constructor
  · intro h
    obtain ⟨find, hfind, h⟩ := Option.bind_eq_some_iff.1 h
    refine ⟨find, hfind, ?_⟩
    clear hfind
    simp only [Option.bind_eq_bind, Option.bind_eq_some_iff, Option.pure_def,
      Option.some.injEq] at h
    obtain ⟨_, hid, _, hidRead, _, htitle, _, htitleRead, _, htime, _, htimeRead, _, hcontent, _,
      hcontentRead, _, hcompleted, rfl⟩ := h
    simp only [hid, htitle, htime, hcontent, Option.bind_some]
    exact ⟨hidRead, htitleRead, htimeRead, hcontentRead, hcompleted⟩
  · rintro ⟨find, hfind, hid, htitle, htime, hcontent, hcompleted⟩
    refine Option.bind_eq_some_iff.2 ⟨find, hfind, ?_⟩
    simp only [Option.bind_eq_bind, ← Option.bind_assoc, hid, htitle, htime, hcontent, hcompleted,
      Option.bind_some, Option.pure_def]

theorem ofJson?_ofFields : ofJson? (ofFields fields) = some item ↔ item.WrittenIn fields := by
  rw [ofJson?_eq_some_iff]
  constructor
  · rintro ⟨find, hfind, hid, htitle, htime, hcontent, hcompleted⟩
    obtain ⟨hfew, rfl⟩ := record?_ofFields.1 hfind
    simp only [List.forall_mem_cons] at hfew
    obtain ⟨hidFew, htitleFew, htimeFew, hcontentFew, hcompletedFew, -⟩ := hfew
    simp only [needed_iff, optional_iff, word?_eq_some_iff, text?_eq_some_iff, bool?_eq_some_iff,
      exists_eq_right, *] at hid htitle htime hcontent hcompleted
    exact ⟨hid, htitle, htime, hcontent, hcompleted⟩
  · rintro ⟨hid, htitle, htime, hcontent, hcompleted⟩
    have hcompletedFew : (valuesIn "completed" fields).length ≤ 1 :=
      hcompleted.elim Once.length_le fun habsent => habsent.1.length_le
    refine ⟨_, record?_ofFields.2 ⟨?_, rfl⟩, ?_⟩
    · simp only [List.forall_mem_cons, List.not_mem_nil, false_imp_iff, implies_true, and_true]
      exact ⟨hid.length_le, htitle.length_le, htime.length_le, hcontent.length_le, hcompletedFew⟩
    · simp only [needed_iff, optional_iff, word?_eq_some_iff, text?_eq_some_iff,
        bool?_eq_some_iff, exists_eq_right, hid.length_le, htitle.length_le, htime.length_le,
        hcontent.length_le, hcompletedFew]
      exact ⟨hid, htitle, htime, hcontent, hcompleted⟩

theorem WrittenIn.of_sameFields (h : item.WrittenIn fields)
    (hsame : SameFields ["id", "title", "time", "content", "completed"] fields fields') :
    item.WrittenIn fields' where
  id := h.id.of_sameFields hsame (by simp)
  title := h.title.of_sameFields hsame (by simp)
  time := h.time.of_sameFields hsame (by simp)
  content := h.content.of_sameFields hsame (by simp)
  completed := by
    obtain honce | ⟨habsent, hfalse⟩ := h.completed
    · exact .inl (honce.of_sameFields hsame (by simp))
    · exact .inr ⟨habsent.of_sameFields hsame (by simp), hfalse⟩

theorem ofJson?_sameFields
    (hsame : SameFields ["id", "title", "time", "content", "completed"] fields fields') :
    ofJson? (ofFields fields) = ofJson? (ofFields fields') := by
  refine Option.ext fun item => ?_
  rw [ofJson?_ofFields, ofJson?_ofFields]
  exact ⟨fun h => h.of_sameFields hsame, fun h => h.of_sameFields hsame.symm⟩

end TodoItem

theorem FlashLevel.ofName?_eq_some_iff {text : String} {level : FlashLevel} :
    ofName? text = some level ↔ text = level.name := by
  constructor
  · intro h
    have hname := List.find?_some h
    exact (beq_iff_eq.1 hname).symm
  · rintro rfl
    exact ofName?_name level

def FlashLevel.WrittenAs (level : FlashLevel) (json : Json) : Prop :=
  json = .ofText level.name ∨ json = .ofFields [(level.name, .null)]

/-- An object or a row of two says a notice. -/
inductive Flash.WrittenAs (flash : Flash) : Json → Prop
  | fields {level : Json} {fields : List (String × Json)} (named : flash.level.WrittenAs level)
      (hlevel : Once "level" level fields)
      (hmessage : Once "message" (.ofText flash.message) fields) :
      flash.WrittenAs (.ofFields fields)
  | row {level : Json} (named : flash.level.WrittenAs level) :
      flash.WrittenAs (.array [level, .ofText flash.message])

namespace Flash

variable {flash : Flash}

theorem level_iff : (json.name?.bind FlashLevel.ofName?) = some flash.level ↔
    flash.level.WrittenAs json := by
  simp only [Option.bind_eq_some_iff, FlashLevel.ofName?_eq_some_iff, exists_eq_right,
    name?_eq_some_iff, FlashLevel.WrittenAs]

theorem ofJson?_eq_some_iff :
    ofJson? json = some flash ↔
      ∃ find, json.record? ["level", "message"] 2 = some find ∧
        ((find "level").bind fun level => level.name?.bind FlashLevel.ofName?) =
          some flash.level ∧
        (find "message").bind text? = some flash.message := by
  constructor
  · intro h
    obtain ⟨find, hfind, h⟩ := Option.bind_eq_some_iff.1 h
    refine ⟨find, hfind, ?_⟩
    clear hfind
    simp only [Option.bind_eq_bind, Option.bind_eq_some_iff, Option.pure_def,
      Option.some.injEq] at h
    obtain ⟨_, hlevel, _, hname, _, hread, _, hmessage, _, hmessageRead, rfl⟩ := h
    simp only [hlevel, hname, hmessage, Option.bind_some]
    exact ⟨hread, hmessageRead⟩
  · rintro ⟨find, hfind, hlevel, hmessage⟩
    refine Option.bind_eq_some_iff.2 ⟨find, hfind, ?_⟩
    simp only [Option.bind_eq_bind, ← Option.bind_assoc, Option.pure_def] at hlevel ⊢
    simp only [hlevel, hmessage, Option.bind_some]

theorem ofJson?_iff_writtenAs : ofJson? json = some flash ↔ flash.WrittenAs json := by
  rw [ofJson?_eq_some_iff]
  constructor
  · rintro ⟨find, hfind, hlevel, hmessage⟩
    cases json with
    | object members =>
      obtain ⟨fields, hfields⟩ := fields_of_record? hfind
      rw [hfields] at hfind ⊢
      obtain ⟨hfew, rfl⟩ := record?_ofFields.1 hfind
      simp only [List.forall_mem_cons] at hfew
      obtain ⟨hlevelFew, hmessageFew, -⟩ := hfew
      obtain ⟨level, honce, hnamed⟩ := (needed_iff hlevelFew).1 hlevel
      obtain ⟨message, hmessageOnce, hread⟩ := (needed_iff hmessageFew).1 hmessage
      rw [text?_eq_some_iff.1 hread] at hmessageOnce
      exact .fields (level_iff.1 hnamed) honce hmessageOnce
    | array items =>
      obtain ⟨hmany, hfew, rfl⟩ := record?_array.1 hfind
      obtain ⟨level, message, rfl⟩ := List.length_eq_two.1 (Nat.le_antisymm hfew hmany)
      cases text?_eq_some_iff.1 hmessage
      exact .row (level_iff.1 hlevel)
    | null | bool | natural | otherNumber | string => cases hfind
  · rintro (⟨hnamed, hlevel, hmessage⟩ | hnamed)
    · refine ⟨_, record?_ofFields.2 ⟨?_, rfl⟩,
        (needed_iff hlevel.length_le).2 ⟨_, hlevel, level_iff.2 hnamed⟩,
        (needed_iff hmessage.length_le).2 ⟨_, hmessage, text?_eq_some_iff.2 rfl⟩⟩
      simp only [List.forall_mem_cons, List.not_mem_nil, false_imp_iff, implies_true, and_true]
      exact ⟨hlevel.length_le, hmessage.length_le⟩
    · exact ⟨_, rfl, level_iff.2 hnamed, rfl⟩

end Flash

/-- The fields say a session: `user_id` and `flashes` may be left out. -/
structure Session.WrittenIn (session : Session) (fields : List (String × Json)) : Prop where
  authenticated : Once "authenticated" (.bool session.authenticated) fields
  userId : Once "user_id" (session.userId.elim .null fun id => .ofText id.text) fields ∨
    Absent "user_id" fields ∧ session.userId = none
  flashes : (∃ values, Once "flashes" (.array values) fields ∧
      List.Forall₂ (fun value flash => flash.WrittenAs value) values session.flashes) ∨
    Absent "flashes" fields ∧ session.flashes = []

namespace Session

variable {session : Session}

theorem ofJson?_eq_some_iff :
    ofJson? json = some session ↔
      ∃ find, json.record? ["authenticated", "user_id", "flashes"] 2 = some find ∧
        (find "authenticated").bind bool? = some session.authenticated ∧
        (find "user_id").elim (some none) textOrNull? = some (session.userId.map UserId.text) ∧
        (find "flashes").elim (some []) (list? Flash.ofJson?) = some session.flashes := by
  constructor
  · intro h
    obtain ⟨find, hfind, h⟩ := Option.bind_eq_some_iff.1 h
    refine ⟨find, hfind, ?_⟩
    clear hfind
    simp only [Option.bind_eq_bind, Option.bind_eq_some_iff, Option.pure_def,
      Option.some.injEq] at h
    obtain ⟨_, hauthenticated, _, hread, text, huser, _, hflashes, rfl⟩ := h
    simp only [hauthenticated, hread, huser, hflashes, Option.bind_some, true_and, and_true]
    cases text <;> rfl
  · rintro ⟨find, hfind, hauthenticated, huser, hflashes⟩
    refine Option.bind_eq_some_iff.2 ⟨find, hfind, ?_⟩
    simp only [Option.bind_eq_bind, ← Option.bind_assoc, hauthenticated, huser, hflashes,
      Option.bind_some, Option.pure_def]
    obtain ⟨authenticated, userId, flashes⟩ := session
    cases userId <;> rfl

theorem userId_iff : json.textOrNull? = some (session.userId.map UserId.text) ↔
    json = session.userId.elim .null fun id => .ofText id.text := by
  rw [textOrNull?_eq_some_iff]
  cases session.userId <;> rfl

theorem flashes_iff : json.list? Flash.ofJson? = some session.flashes ↔
    ∃ values, json = .array values ∧
      List.Forall₂ (fun value flash => flash.WrittenAs value) values session.flashes := by
  simp only [list?_eq_some_iff, Flash.ofJson?_iff_writtenAs]

theorem ofJson?_ofFields : ofJson? (ofFields fields) = some session ↔ session.WrittenIn fields := by
  rw [ofJson?_eq_some_iff]
  constructor
  · rintro ⟨find, hfind, hauthenticated, huser, hflashes⟩
    obtain ⟨hfew, rfl⟩ := record?_ofFields.1 hfind
    simp only [List.forall_mem_cons] at hfew
    obtain ⟨hauthenticatedFew, huserFew, hflashesFew, -⟩ := hfew
    simp only [needed_iff, optional_iff, bool?_eq_some_iff, userId_iff, flashes_iff,
      exists_eq_right, *] at hauthenticated huser hflashes
    refine ⟨hauthenticated, ?_, ?_⟩
    · simpa using huser
    · obtain ⟨_, honce, values, rfl, hread⟩ | habsent := hflashes
      · exact .inl ⟨values, honce, hread⟩
      · exact .inr habsent
  · rintro ⟨hauthenticated, huser, hflashes⟩
    have huserFew : (valuesIn "user_id" fields).length ≤ 1 :=
      huser.elim Once.length_le fun habsent => habsent.1.length_le
    have hflashesFew : (valuesIn "flashes" fields).length ≤ 1 :=
      hflashes.elim (fun ⟨_, honce, _⟩ => honce.length_le) fun habsent => habsent.1.length_le
    refine ⟨_, record?_ofFields.2 ⟨?_, rfl⟩, ?_, ?_, ?_⟩
    · simp only [List.forall_mem_cons, List.not_mem_nil, false_imp_iff, implies_true, and_true]
      exact ⟨hauthenticated.length_le, huserFew, hflashesFew⟩
    · exact (needed_iff hauthenticated.length_le).2 ⟨_, hauthenticated, rfl⟩
    · refine (optional_iff huserFew).2 ?_
      simpa [userId_iff] using huser
    · refine (optional_iff hflashesFew).2 ?_
      obtain ⟨values, honce, hread⟩ | habsent := hflashes
      · exact .inl ⟨_, honce, flashes_iff.2 ⟨values, rfl, hread⟩⟩
      · exact .inr habsent

theorem WrittenIn.of_sameFields (h : session.WrittenIn fields)
    (hsame : SameFields ["authenticated", "user_id", "flashes"] fields fields') :
    session.WrittenIn fields' where
  authenticated := h.authenticated.of_sameFields hsame (by simp)
  userId := by
    obtain honce | ⟨habsent, hnone⟩ := h.userId
    · exact .inl (honce.of_sameFields hsame (by simp))
    · exact .inr ⟨habsent.of_sameFields hsame (by simp), hnone⟩
  flashes := by
    obtain ⟨values, honce, hread⟩ | ⟨habsent, hnone⟩ := h.flashes
    · exact .inl ⟨values, honce.of_sameFields hsame (by simp), hread⟩
    · exact .inr ⟨habsent.of_sameFields hsame (by simp), hnone⟩

theorem ofJson?_sameFields
    (hsame : SameFields ["authenticated", "user_id", "flashes"] fields fields') :
    ofJson? (ofFields fields) = ofJson? (ofFields fields') := by
  refine Option.ext fun session => ?_
  rw [ofJson?_ofFields, ofJson?_ofFields]
  exact ⟨fun h => h.of_sameFields hsame, fun h => h.of_sameFields hsame.symm⟩

theorem ofJson?_isAuthenticated (h : ofJson? json = some session)
    (hauthenticated : session.isAuthenticated = true) :
    ∃ id, session.userId = some id ∧
      ((∃ fields, json = .ofFields fields ∧ Once "authenticated" (.bool true) fields ∧
          Once "user_id" (.ofText id.text) fields) ∨
        ∃ items, json = .array (.bool true :: .ofText id.text :: items)) := by
  rw [isAuthenticated, Bool.and_eq_true] at hauthenticated
  obtain ⟨hflag, huser⟩ := hauthenticated
  obtain ⟨id, hid⟩ := Option.isSome_iff_exists.1 huser
  refine ⟨id, hid, ?_⟩
  obtain ⟨find, hfind, hread, huserRead, -⟩ := ofJson?_eq_some_iff.1 h
  cases json with
  | object members =>
    obtain ⟨fields, hfields⟩ := fields_of_record? hfind
    rw [hfields] at h ⊢
    obtain ⟨hwritten, hwrittenUser, -⟩ := ofJson?_ofFields.1 h
    rw [hflag] at hwritten
    rw [hid] at hwrittenUser
    refine .inl ⟨fields, rfl, hwritten, ?_⟩
    exact hwrittenUser.resolve_right fun habsent => nomatch habsent.2
  | array items =>
    obtain ⟨hmany, -, rfl⟩ := record?_array.1 hfind
    match items, hmany with
    | flag :: user :: others, _ =>
      rw [hflag] at hread
      rw [userId_iff.1 huserRead, hid, bool?_eq_some_iff.1 hread]
      exact .inr ⟨others, rfl⟩
  | null | bool | natural | otherNumber | string => cases hfind

end Session

/-- An object text is read as an item, and as a session, by the fields of the declared names alone,
wherever they stand and whatever stands between them. Nothing is read of an object with a name that
is no text. A session that is signed in has been read from a text that says so and says who it
is. -/
theorem records_read_by_fields {bytes : List UInt8} :
    (∀ fields, TextOf (.ofFields fields) bytes →
      (∀ item, (parse? bytes).bind TodoItem.ofJson? = some item ↔ item.WrittenIn fields) ∧
      ∀ session, Session.ofStored? bytes = some session ↔ session.WrittenIn fields) ∧
    (∀ fields fields' bytes', TextOf (.ofFields fields) bytes →
      TextOf (.ofFields fields') bytes' →
      (SameFields ["id", "title", "time", "content", "completed"] fields fields' →
        (parse? bytes).bind TodoItem.ofJson? = (parse? bytes').bind TodoItem.ofJson?) ∧
      (SameFields ["authenticated", "user_id", "flashes"] fields fields' →
        Session.ofStored? bytes = Session.ofStored? bytes')) ∧
    (∀ members value, TextOf (.object members) bytes → (none, value) ∈ members →
      (parse? bytes).bind TodoItem.ofJson? = none ∧ Session.ofStored? bytes = none) ∧
    ∀ session, Session.ofStored? bytes = some session → session.isAuthenticated = true →
      ∃ id, session.userId = some id ∧
        ((∃ fields, TextOf (.ofFields fields) bytes ∧ Once "authenticated" (.bool true) fields ∧
            Once "user_id" (.ofText id.text) fields) ∨
          ∃ items, TextOf (.array (.bool true :: .ofText id.text :: items)) bytes) := by
  refine ⟨?_, ?_, ?_, ?_⟩
  · intro fields htext
    rw [Session.ofStored?, parse?_eq_some_iff.2 htext]
    exact ⟨fun item => TodoItem.ofJson?_ofFields, fun session => Session.ofJson?_ofFields⟩
  · intro fields fields' bytes' htext htext'
    rw [Session.ofStored?, Session.ofStored?, parse?_eq_some_iff.2 htext,
      parse?_eq_some_iff.2 htext']
    exact ⟨TodoItem.ofJson?_sameFields, Session.ofJson?_sameFields⟩
  · intro members value htext hnameless
    rw [Session.ofStored?, parse?_eq_some_iff.2 htext]
    constructor
    · rw [Option.bind_some, TodoItem.ofJson?, record?_nameless hnameless]
      rfl
    · rw [Option.bind_some, Session.ofJson?, record?_nameless hnameless]
      rfl
  · intro session hread hauthenticated
    obtain ⟨json, hparse, h⟩ := Option.bind_eq_some_iff.1 hread
    have htext := parse?_eq_some_iff.1 hparse
    obtain ⟨id, hid, ⟨fields, rfl, hflag, huser⟩ | ⟨items, rfl⟩⟩ :=
      Session.ofJson?_isAuthenticated h hauthenticated
    · exact ⟨id, hid, .inl ⟨fields, htext, hflag, huser⟩⟩
    · exact ⟨id, hid, .inr ⟨items, htext⟩⟩

theorem records_read_by_fields_of_texts :
    let noted := [("note", .array [.object []]), ("completed", .bool true),
      ("content", .ofText "c"), ("time", .ofText "t"), ("title", .ofText "x"), ("id", .natural 7)]
    let item : TodoItem := ⟨7, "x", "t", "c", true⟩
    let session : Session := ⟨true, some ⟨"7"⟩, []⟩
    let text := fun json : Json => Text.utf8 json.toCompactText.toList
    (parse? (text (ofFields noted))).bind TodoItem.ofJson? = some item ∧
      (parse? (text (ofFields noted))).bind TodoItem.ofJson? =
        (parse? (text item.toJson)).bind TodoItem.ofJson? ∧
      Session.ofStored? [0x7B, 0x22, 0x5C, 0x75, 0x64, 0x38, 0x30, 0x30, 0x22, 0x3A, 0x31, 0x7D] =
        none ∧
      ∃ id, session.userId = some id ∧
        ((∃ fields, TextOf (.ofFields fields) (text session.toJson) ∧
            Once "authenticated" (.bool true) fields ∧ Once "user_id" (.ofText id.text) fields) ∨
          ∃ items, TextOf (.array (.bool true :: .ofText id.text :: items))
            (text session.toJson)) := by
  intro noted item session text
  have hwritable : Writable (ofFields noted) := by
    refine .object ?_ ?_
    · intro member hmember
      obtain ⟨field, -, rfl⟩ := List.mem_map.1 hmember
      rfl
    · intro member hmember
      simp only [noted, List.map_cons, List.map_nil, List.mem_cons, List.not_mem_nil,
        or_false] at hmember
      rcases hmember with rfl | rfl | rfl | rfl | rfl | rfl
      · refine .array fun value hvalue => ?_
        obtain rfl := List.mem_singleton.1 hvalue
        exact .object (by simp) (by simp)
      · exact .bool true
      · exact .text "c"
      · exact .text "t"
      · exact .text "x"
      · exact .natural 7
  have hwritten : item.WrittenIn noted := by
    constructor
    case completed => exact .inl (once_iff.2 (by simp [valuesIn, noted, item]))
    all_goals exact once_iff.2 (by simp [valuesIn, noted, item])
  let plain : List (String × Json) := [("id", .natural 7), ("title", .ofText "x"),
    ("time", .ofText "t"), ("content", .ofText "c"), ("completed", .bool true)]
  have hperm : plain.reverse.Perm plain := List.reverse_perm plain
  have hsame : SameFields ["id", "title", "time", "content", "completed"] noted plain := by
    simpa [SameFields, noted, plain] using hperm
  have hnoted := parse?_eq_some_iff.1 (parse?_compact hwritable)
  have hitem := parse?_eq_some_iff.1 (parse?_compact item.writable_toJson)
  exact ⟨((records_read_by_fields.1 noted hnoted).1 item).2 hwritten,
    (records_read_by_fields.2.1 noted plain _ hnoted hitem).1 hsame,
    (records_read_by_fields.2.2.1 [(none, .natural 1)] (.natural 1)
      (parse?_eq_some_iff.1 (by rfl)) List.mem_cons_self).2,
    records_read_by_fields.2.2.2 session session.ofStored?_toStored rfl⟩

end Gatehouse
