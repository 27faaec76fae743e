import BikesNest.Web.Queues

/-!
# The audit log of the administrators

`/admin/audit` lists the events of the audit log, the latest first and fifty a page, and every
page that is not empty carries a link behind its last event.  The link writes the filter out
again, but its two dates as a field of the form shows them, without seconds.  So the first page
has the filter that was asked for, and all others have it with whole minutes.

Events are recorded while an administrator reads.  `auditEvents_read` says what the pages show
then: each event that matches both filters, once and in order.
-/

namespace BikesNest.Web

open BikesNest.Domain Store Relational MovingPages

-- Facts about the characters of a text are decided along the text, not over all characters.
attribute [local instance (high)] List.decidableBAll

/-! ## Dates of a filter -/

/-- What `chrono` reads and writes. -/
structure FilterDates where
  /-- `DateTime::parse_from_rfc3339`. -/
  rfc3339 : List Char → Option Instant
  /-- `NaiveDateTime::parse_from_str`, taken as UTC. -/
  naive : List Char → String → Option Instant
  /-- `NaiveDate::parse_from_str`, at midnight UTC. -/
  date : List Char → String → Option Instant
  /-- `format("%Y-%m-%dT%H:%M")`. -/
  minutes : Instant → List Char

/-- `parse_datetime`. -/
def parseDatetime (C : FilterDates) (s : List Char) : Option Instant :=
  let s := Text.trimChars s
  if s = [] then none else C.rfc3339 s

/-- `parse_filter_datetime`. -/
def parseFilterDatetime (C : FilterDates) (s : List Char) : Option Instant :=
  let s := Text.trimChars s
  if s = [] then none
  else
    (parseDatetime C s).or <|
      (["%Y-%m-%dT%H:%M:%S", "%Y-%m-%dT%H:%M", "%Y-%m-%d"].findSome? (C.naive s)).or
        (C.date s "%Y-%m-%d")

/-- `normalize_filter_datetime`. -/
def normalizeFilterDatetime (C : FilterDates) (raw : List Char) : List Char :=
  match parseFilterDatetime C raw with
  | some at' => C.minutes at'
  | none => Text.trimChars raw

/-- The beginning of a minute. -/
def toMinute (at' : Instant) : Instant := at' - at' % (60 * second)

theorem toMinute_toMinute (at' : Instant) : toMinute (toMinute at') = toMinute at' := by
  have hrest : (at' - at' % (60 * second)) % (60 * second) = 0 := by
    rw [Int.sub_emod, Int.emod_emod, sub_self, Int.zero_emod]
  rw [toMinute, toMinute, hrest, sub_zero]

/-- The characters of a date in a field of a form. -/
def isDateByte (b : UInt8) : Bool := isUnreserved b || b = 58

/-- A date is written without seconds and zone, and read as its minute. -/
structure FilterDates.Writes (C : FilterDates) (at' : Instant) : Prop where
  ne_nil : C.minutes at' ≠ []
  plain : ∀ c ∈ C.minutes at', c.toNat < 128 ∧ isDateByte (.ofNat c.toNat) = true
  noZone : C.rfc3339 (C.minutes at') = none
  noSeconds : C.naive (C.minutes at') "%Y-%m-%dT%H:%M:%S" = none
  read : C.naive (C.minutes at') "%Y-%m-%dT%H:%M" = some (toMinute at')
  cut : C.minutes (toMinute at') = C.minutes at'

/-- A field that is a date, or that no format reads and a link keeps: the empty one is such. -/
def FilterDates.IsField (C : FilterDates) (raw : List Char) : Prop :=
  (parseFilterDatetime C raw = none ∧
      ∀ c ∈ Text.trimChars raw, c.toNat < 128 ∧ isDateByte (.ofNat c.toNat) = true) ∨
    ∃ at', parseFilterDatetime C raw = some at' ∧ C.Writes at'

section Dates

variable {C : FilterDates} {raw : List Char} {at' : Instant}

theorem not_isWhitespace_of_isDateByte : ∀ n < 128, isDateByte (.ofNat n) = true →
    Text.isWhitespace (Char.ofNat n) = false := by
  decide +kernel

theorem trimChars_of_plain {s : List Char}
    (h : ∀ c ∈ s, c.toNat < 128 ∧ isDateByte (.ofNat c.toNat) = true) : Text.trimChars s = s := by
  have hplain : ∀ c ∈ s, ¬ Text.isWhitespace c = true := by
    intro c hc
    have hc := h c hc
    have hspace := not_isWhitespace_of_isDateByte c.toNat hc.1 hc.2
    rw [Char.ofNat_toNat] at hspace
    simp [hspace]
  have hfirst : s.dropWhile Text.isWhitespace = s := by
    rw [List.dropWhile_eq_self_iff]
    intro hpos
    exact hplain _ (List.getElem_mem hpos)
  rw [Text.trimChars, hfirst, List.rdropWhile_eq_self_iff]
  intro hne
  exact hplain _ (List.getLast_mem hne)

theorem FilterDates.Writes.parse (h : C.Writes at') :
    parseFilterDatetime C (C.minutes at') = some (toMinute at') := by
  have htrim := trimChars_of_plain h.plain
  simp [parseFilterDatetime, parseDatetime, htrim, h.ne_nil, h.noZone, h.noSeconds, h.read]

theorem FilterDates.Writes.toMinute (h : C.Writes at') : C.Writes (toMinute at') where
  ne_nil := by rw [h.cut]; exact h.ne_nil
  plain := by rw [h.cut]; exact h.plain
  noZone := by rw [h.cut]; exact h.noZone
  noSeconds := by rw [h.cut]; exact h.noSeconds
  read := by rw [h.cut, toMinute_toMinute]; exact h.read
  cut := by rw [toMinute_toMinute]

@[simp] theorem parseFilterDatetime_trimChars (raw : List Char) :
    parseFilterDatetime C (Text.trimChars raw) = parseFilterDatetime C raw := by
  simp only [parseFilterDatetime, Text.trimChars_idem]

theorem normalizeFilterDatetime_of_none (h : parseFilterDatetime C raw = none) :
    normalizeFilterDatetime C raw = Text.trimChars raw := by
  rw [normalizeFilterDatetime, h]

theorem normalizeFilterDatetime_of_some (h : parseFilterDatetime C raw = some at') :
    normalizeFilterDatetime C raw = C.minutes at' := by
  rw [normalizeFilterDatetime, h]

/-- A field is read back as its minute. -/
theorem FilterDates.IsField.parse (h : C.IsField raw) :
    parseFilterDatetime C (normalizeFilterDatetime C raw) =
      (parseFilterDatetime C raw).map toMinute := by
  rcases h with ⟨hnone, -⟩ | ⟨at', hat, hwrites⟩
  · rw [normalizeFilterDatetime_of_none hnone, parseFilterDatetime_trimChars, hnone]
    rfl
  · rw [normalizeFilterDatetime_of_some hat, hat]
    exact hwrites.parse

theorem FilterDates.IsField.normalize_normalize (h : C.IsField raw) :
    normalizeFilterDatetime C (normalizeFilterDatetime C raw) = normalizeFilterDatetime C raw := by
  have hparse := h.parse
  rcases h with ⟨hnone, -⟩ | ⟨at', hat, hwrites⟩
  · rw [hnone] at hparse
    rw [normalizeFilterDatetime_of_none hparse, normalizeFilterDatetime_of_none hnone]
    exact Text.trimChars_idem raw
  · rw [hat] at hparse
    rw [normalizeFilterDatetime_of_some hparse, normalizeFilterDatetime_of_some hat]
    exact hwrites.cut

/-- A link writes the characters of a field as they are. -/
theorem FilterDates.IsField.plain (h : C.IsField raw) :
    ∀ c ∈ normalizeFilterDatetime C raw, c.toNat < 128 ∧ isDateByte (.ofNat c.toNat) = true := by
  rcases h with ⟨hnone, hplain⟩ | ⟨at', hat, hwrites⟩
  · rw [normalizeFilterDatetime_of_none hnone]
    exact hplain
  · rw [normalizeFilterDatetime_of_some hat]
    exact hwrites.plain

/-- What the page shows of a field is a field. -/
theorem FilterDates.IsField.normalized (h : C.IsField raw) :
    C.IsField (normalizeFilterDatetime C raw) := by
  have hparse := h.parse
  have hplain := h.plain
  rcases h with ⟨hnone, -⟩ | ⟨at', hat, hwrites⟩
  · left
    rw [hnone] at hparse
    refine ⟨hparse, ?_⟩
    rw [normalizeFilterDatetime_of_none hnone] at hplain ⊢
    rw [Text.trimChars_idem]
    exact hplain
  · right
    rw [hat] at hparse
    exact ⟨toMinute at', hparse, hwrites.toMinute⟩

end Dates

/-! ## The filter -/

/-- `AuditFilter`. -/
structure AuditFilter where
  actorId : Option UserId
  action : Option String
  targetType : Option String
  fromAt : Option Instant
  toAt : Option Instant
  cursor : Option Int
  limit : Nat

/-- The clauses of the filter, less the cursor. -/
def AuditFilter.keeps (filter : AuditFilter) (event : AuditEvent) : Bool :=
  filter.actorId.all (fun actor => event.actorUserId = some actor) &&
    filter.action.all (fun action => event.action = action) &&
    filter.targetType.all (fun targetType => event.targetType = targetType) &&
    filter.fromAt.all (fun fromAt => fromAt ≤ event.createdAt) &&
    filter.toAt.all (fun toAt => event.createdAt ≤ toAt)

/-- The filter with whole minutes. -/
def AuditFilter.toMinutes (filter : AuditFilter) : AuditFilter :=
  { filter with fromAt := filter.fromAt.map toMinute, toAt := filter.toAt.map toMinute }

/-- `list` of the audit log reader: a page, and the cursor of the next one. -/
def listAudit (db : Db) (filter : AuditFilter) : List (Nat × AuditEvent) × Option Nat :=
  let items := (db.auditEvents.select fun id event =>
    filter.keeps event && filter.cursor.all fun cursor => (id : Int) < cursor).reverse.take
      (max 1 (min filter.limit 100))
  (items, items.getLast?.map Prod.fst)

/-- `AuditFilterQuery`. -/
structure AuditFilterQuery where
  action : List Char
  targetType : List Char
  actor : Int
  fromText : List Char
  toText : List Char
  cursor : Int
deriving DecidableEq

/-- `Query<AuditFilterQuery>`. -/
def AuditFilterQuery.read (query : Option (List Char)) : Option AuditFilterQuery := do
  let pairs := queryPairs query
  let action ← field pairs "action".toList
  let targetType ← field pairs "target_type".toList
  let actor ← (field pairs "actor".toList).bind readId
  let fromText ← field pairs "from".toList
  let toText ← field pairs "to".toList
  let cursor ← (field pairs "cursor".toList).bind readId
  return {
    action := action.getD []
    targetType := targetType.getD []
    actor
    fromText := fromText.getD []
    toText := toText.getD []
    cursor }

/-- The filter that `admin_audit` builds. -/
def AuditFilterQuery.filter (C : FilterDates) (q : AuditFilterQuery) : AuditFilter where
  actorId := if 0 < q.actor then some q.actor.toNat else none
  action := if q.action = [] then none else some (String.ofList q.action)
  targetType := if q.targetType = [] then none else some (String.ofList q.targetType)
  fromAt := parseFilterDatetime C q.fromText
  toAt := parseFilterDatetime C q.toText
  cursor := if 0 < q.cursor then some q.cursor else none
  limit := 50

/-- The link behind the last event of a page. -/
def auditLink (C : FilterDates) (q : AuditFilterQuery) (id : Nat) : List Char :=
  "/admin/audit?action=".toList ++ q.action ++ "&target_type=".toList ++ q.targetType ++
    "&actor=".toList ++ displayI64 q.actor ++ "&from=".toList ++
    normalizeFilterDatetime C q.fromText ++ "&to=".toList ++
    normalizeFilterDatetime C q.toText ++ "&cursor=".toList ++ Nat.toDigits 10 id

/-- `admin_audit` for an administrator, of which only the events and the link are kept. -/
def adminAudit (C : FilterDates) (db : Db) (query : Option (List Char)) :
    Option (List (Nat × AuditEvent) × Option (List Char)) :=
  (AuditFilterQuery.read query).map fun q =>
    let page := listAudit db (q.filter C)
    (page.1, page.2.map (auditLink C q))

/-- What a link asks for. -/
def AuditFilterQuery.linked (C : FilterDates) (q : AuditFilterQuery) (id : Nat) :
    AuditFilterQuery :=
  { q with
    fromText := normalizeFilterDatetime C q.fromText
    toText := normalizeFilterDatetime C q.toText
    cursor := id }

/-- A query that its link writes as it is, but for the seconds: the link encodes nothing. -/
structure AuditFilterQuery.Plain (C : FilterDates) (q : AuditFilterQuery) : Prop where
  action : IsUnreservedText q.action
  targetType : IsUnreservedText q.targetType
  fromText : C.IsField q.fromText
  toText : C.IsField q.toText

section Links

variable {C : FilterDates} {q : AuditFilterQuery}

theorem linked_linked (h : q.Plain C) (id next : Nat) :
    (q.linked C id).linked C next = q.linked C next := by
  have hfrom := h.fromText.normalize_normalize
  have hto := h.toText.normalize_normalize
  unfold AuditFilterQuery.linked
  dsimp only
  rw [hfrom, hto]

/-- A link keeps the filter, with whole minutes. -/
theorem filter_linked (h : q.Plain C) {id : Nat} (hpos : 0 < id) :
    (q.linked C id).filter C = { (q.filter C).toMinutes with cursor := some (id : Int) } := by
  have hcursor : (0 : Int) < id := by omega
  have hfrom := h.fromText.parse
  have hto := h.toText.parse
  unfold AuditFilterQuery.filter AuditFilterQuery.linked AuditFilter.toMinutes
  dsimp only
  rw [hfrom, hto, if_pos hcursor]

/-- A link asks for a query that its own links write as well. -/
theorem plain_linked (h : q.Plain C) (id : Nat) : (q.linked C id).Plain C where
  action := h.action
  targetType := h.targetType
  fromText := h.fromText.normalized
  toText := h.toText.normalized

/-- The fields of a link. -/
def AuditFilterQuery.fields (C : FilterDates) (q : AuditFilterQuery) (id : Nat) :
    List (List Char × Option (List Char)) :=
  [("action".toList, some q.action), ("target_type".toList, some q.targetType),
    ("actor".toList, some (displayI64 q.actor)),
    ("from".toList, some (normalizeFilterDatetime C q.fromText)),
    ("to".toList, some (normalizeFilterDatetime C q.toText)),
    ("cursor".toList, some (Nat.toDigits 10 id))]

theorem auditLink_eq (id : Nat) : auditLink C q id =
    "/admin/audit?".toList ++ joined ((given (q.fields C id)).map fun p => assigned p.1 p.2) := by
  unfold auditLink AuditFilterQuery.fields
  generalize normalizeFilterDatetime C q.fromText = fromText
  generalize normalizeFilterDatetime C q.toText = toText
  generalize displayI64 q.actor = actor
  generalize Nat.toDigits 10 id = cursor
  simp [given, assigned, joined, List.intercalate]

theorem linkedQuery_auditLink (id : Nat) : linkedQuery (auditLink C q id) =
    some (joined ((given (q.fields C id)).map fun p => assigned p.1 p.2)) := by
  rw [auditLink_eq]
  generalize joined ((given (q.fields C id)).map fun p => assigned p.1 p.2) = text
  rfl

theorem isUnreservedText_displayI64 (n : Int) : IsUnreservedText (displayI64 n) := by
  intro c hc
  unfold displayI64 at hc
  split at hc
  · rcases List.mem_cons.mp hc with rfl | hc
    · decide
    · exact isUnreservedText_toDigits _ c hc
  · exact isUnreservedText_toDigits _ c hc

theorem isDateByte_of_isUnreservedText {s : List Char} (h : IsUnreservedText s) :
    ∀ c ∈ s, c.toNat < 128 ∧ isDateByte (.ofNat c.toNat) = true := by
  intro c hc
  exact ⟨(h c hc).1, by rw [isDateByte, (h c hc).2, Bool.true_or]⟩

theorem writes_dates : Writes (Percent.form isDateByte) := by
  apply writes_form (by decide)
  intro b hb
  simp only [isDateByte, Bool.or_eq_true, decide_eq_true_eq] at hb
  rcases hb with hb | hb
  · exact toNat_lt_of_isUnreserved hb
  · rw [hb]
    decide

/-- The pairs of a link are its fields. -/
theorem queryPairs_auditLink (h : q.Plain C) (id : Nat) :
    queryPairs (linkedQuery (auditLink C q id)) = given (q.fields C id) := by
  rw [linkedQuery_auditLink]
  apply queryPairs_given_of_kept writes_dates (by decide)
  · intro b hb
    rw [isDateByte, hb, Bool.true_or]
  · have hnames : ∀ name ∈ ["action".toList, "target_type".toList, "actor".toList, "from".toList,
        "to".toList, "cursor".toList], ∀ c ∈ name,
        c.toNat < 128 ∧ isUnreserved (.ofNat c.toNat) = true := by decide +kernel
    exact hnames
  · intro p hp
    have hp : p ∈ [("action".toList, q.action), ("target_type".toList, q.targetType),
        ("actor".toList, displayI64 q.actor),
        ("from".toList, normalizeFilterDatetime C q.fromText),
        ("to".toList, normalizeFilterDatetime C q.toText),
        ("cursor".toList, Nat.toDigits 10 id)] := hp
    simp only [List.mem_cons, List.not_mem_nil, or_false] at hp
    rcases hp with rfl | rfl | rfl | rfl | rfl | rfl
    · exact isDateByte_of_isUnreservedText h.action
    · exact isDateByte_of_isUnreservedText h.targetType
    · exact isDateByte_of_isUnreservedText (isUnreservedText_displayI64 _)
    · exact h.fromText.plain
    · exact h.toText.plain
    · exact isDateByte_of_isUnreservedText (isUnreservedText_toDigits id)

theorem range_of_read {query : Option (List Char)} (h : AuditFilterQuery.read query = some q) :
    -9223372036854775808 ≤ q.actor ∧ q.actor < 9223372036854775808 := by
  unfold AuditFilterQuery.read at h
  simp only [Option.bind_eq_bind, Option.bind_eq_some_iff, Option.pure_def, Option.some.injEq] at h
  obtain ⟨-, -, -, -, actor, ⟨text, -, hactor⟩, -, -, -, -, -, -, rfl⟩ := h
  cases text with
  | none =>
    cases hactor
    show (-9223372036854775808 : Int) ≤ 0 ∧ (0 : Int) < 9223372036854775808
    omega
  | some text => exact range_of_parseI64 hactor

/-- A link is read as what it asks for. -/
theorem read_auditLink (h : q.Plain C) (hactor : -9223372036854775808 ≤ q.actor ∧
    q.actor < 9223372036854775808) {id : Nat} (hid : id < 9223372036854775808) :
    AuditFilterQuery.read (linkedQuery (auditLink C q id)) = some (q.linked C id) := by
  have hpairs := queryPairs_auditLink h id
  have hnodup : ((q.fields C id).map Prod.fst).Nodup := by
    show ["action".toList, "target_type".toList, "actor".toList, "from".toList, "to".toList,
      "cursor".toList].Nodup
    decide +kernel
  have hfield : ∀ {name value}, (name, value) ∈ q.fields C id →
      field (given (q.fields C id)) name = some value := fun hmem => field_given hnodup hmem
  have haction := hfield (.head _)
  have htarget := hfield (.tail _ (.head _))
  have hactorField := hfield (.tail _ (.tail _ (.head _)))
  have hfrom := hfield (.tail _ (.tail _ (.tail _ (.head _))))
  have hto := hfield (.tail _ (.tail _ (.tail _ (.tail _ (.head _)))))
  have hcursor := hfield (.tail _ (.tail _ (.tail _ (.tail _ (.tail _ (.head _))))))
  have hdisplay := parseI64_displayI64 hactor.1 hactor.2
  have hdigits := parseI64_toDigits hid
  simp only [AuditFilterQuery.read, hpairs, haction, htarget, hactorField, hfrom, hto, hcursor,
    readId, hdisplay, hdigits, Option.bind_some, Option.bind_eq_bind, Option.pure_def,
    Option.getD_some]
  rfl

end Links

/-! ## Following the links -/

/-- The key of an event: the latest is the first. -/
def latestFirst (x : Nat × AuditEvent) : Natᵒᵈ := OrderDual.toDual x.1

/-- The events that a filter keeps, the latest first. -/
def auditRows (filter : AuditFilter) (db : Db) : List (Nat × AuditEvent) :=
  (db.auditEvents.select fun _ event => filter.keeps event).reverse

/-- The query is that of a link behind an event. -/
def AsksLater (C : FilterDates) (q : AuditFilterQuery) (query : Option (List Char))
    (cursor : Option Natᵒᵈ) : Prop :=
  ∃ id : Nat, 0 < id ∧ cursor = some (OrderDual.toDual id) ∧
    AuditFilterQuery.read query = some (q.linked C id)

theorem pairwise_auditRows (filter : AuditFilter) (db : Db) :
    (auditRows filter db).Pairwise fun a b => latestFirst a < latestFirst b := by
  rw [auditRows, List.pairwise_reverse]
  exact (Table.pairwise_select db.auditEvents _).imp fun h => OrderDual.toDual_lt_toDual.mpr h

theorem mem_auditRows {filter : AuditFilter} {db : Db} {x : Nat × AuditEvent} :
    x ∈ auditRows filter db ↔ db.auditEvents.row x.1 = some x.2 ∧ filter.keeps x.2 = true := by
  rw [auditRows, List.mem_reverse]
  exact Table.mem_select

theorem listAudit_fst (db : Db) {filter : AuditFilter} {cursor : Option Natᵒᵈ}
    (h : filter.cursor = cursor.map fun id => ((OrderDual.ofDual id : Nat) : Int)) :
    (listAudit db filter).1 =
      pageOf latestFirst (max 1 (min filter.limit 100)) (auditRows filter db) cursor := by
  show List.take _ _ = _
  rw [pageOf, auditRows, Table.select, Table.select, List.filter_reverse, List.filter_filter]
  congr 3
  funext x
  rw [h]
  cases cursor with
  | none => simp [Keyset.isAfter]
  | some c =>
    have hlt : (x.1 : Int) < ((OrderDual.ofDual c : Nat) : Int) ↔ c < latestFirst x := by
      rw [latestFirst, Int.ofNat_lt]
      exact Iff.rfl
    simp only [Option.map_some, Option.all_some, Keyset.isAfter, decide_eq_decide.mpr hlt]
    exact Bool.and_comm _ _

section Reading

variable {C : FilterDates} {q : AuditFilterQuery} {query : Option (List Char)}

/-- A page lists the events behind its cursor, and its link asks for those behind the page. -/
theorem adminAudit_answers (hread : AuditFilterQuery.read query = some q) (hplain : q.Plain C)
    (hactor : -9223372036854775808 ≤ q.actor ∧ q.actor < 9223372036854775808) {db : Db}
    (hserial : SerialIds db.auditEvents) {cursor : Option Natᵒᵈ}
    (hcursor : (q.filter C).cursor = cursor.map fun id => ((OrderDual.ofDual id : Nat) : Int)) :
    ∃ link, followed (adminAudit C db query) =
        some (pageOf latestFirst 50 (auditRows (q.filter C) db) cursor, link) ∧
      (link = none → (pageOf latestFirst 50 (auditRows (q.filter C) db) cursor).length < 50) ∧
      ∀ next, link = some next →
        ∃ x, (pageOf latestFirst 50 (auditRows (q.filter C) db) cursor).getLast? = some x ∧
          AsksLater C q next (some (latestFirst x)) := by
  have hpage : (listAudit db (q.filter C)).1 =
      pageOf latestFirst 50 (auditRows (q.filter C) db) cursor := listAudit_fst db hcursor
  have hanswer : followed (adminAudit C db query) =
      some (pageOf latestFirst 50 (auditRows (q.filter C) db) cursor,
        ((listAudit db (q.filter C)).2.map (auditLink C q)).map linkedQuery) := by
    rw [adminAudit, hread, ← hpage]
    rfl
  refine ⟨_, hanswer, ?_, ?_⟩
  · intro hnone
    rw [Option.map_eq_none_iff, Option.map_eq_none_iff] at hnone
    have hlast : (listAudit db (q.filter C)).1.getLast? = none := Option.map_eq_none_iff.mp hnone
    rw [List.getLast?_eq_none_iff, hpage] at hlast
    rw [hlast]
    exact Nat.zero_lt_succ 49
  · intro next hnext
    obtain ⟨link, hlinked, rfl⟩ := Option.map_eq_some_iff.mp hnext
    obtain ⟨id, hid, rfl⟩ := Option.map_eq_some_iff.mp hlinked
    obtain ⟨x, hx, rfl⟩ := Option.map_eq_some_iff.mp hid
    have hx : (listAudit db (q.filter C)).1.getLast? = some x := hx
    rw [hpage] at hx
    have hrow := (mem_auditRows.mp (mem_of_mem_pageOf (List.mem_of_getLast? hx)).1).1
    have hbounds := hserial x.1 x.2 hrow
    exact ⟨x, hx, x.1, hbounds.1, rfl, read_auditLink hplain hactor hbounds.2⟩

/-- The pages behind the first list the events with whole minutes. -/
theorem audit_lists (hplain : q.Plain C)
    (hactor : -9223372036854775808 ≤ q.actor ∧ q.actor < 9223372036854775808) :
    Lists (fun db query => followed (adminAudit C db query)) (fun db => SerialIds db.auditEvents)
      (auditRows (q.filter C).toMinutes) latestFirst 50 (AsksLater C q) where
  sorted db := pairwise_auditRows _ db
  answers := by
    intro db query cursor hserial hasks
    obtain ⟨id, hpos, rfl, hread⟩ := hasks
    have hfilter := filter_linked hplain hpos
    have hrows : auditRows ((q.linked C id).filter C) db = auditRows (q.filter C).toMinutes db := by
      rw [hfilter]
      rfl
    have hcursor : ((q.linked C id).filter C).cursor =
        (some (OrderDual.toDual id)).map fun id => ((OrderDual.ofDual id : Nat) : Int) := by
      rw [hfilter]
      rfl
    have hanswers := adminAudit_answers hread (plain_linked hplain id) hactor hserial hcursor
    obtain ⟨link, hanswer, hshort, hlink⟩ := hanswers
    rw [hrows] at hanswer hshort hlink
    refine ⟨link, hanswer, hshort, ?_⟩
    intro next hnext
    obtain ⟨x, hlast, later, hlater, hkey, hquery⟩ := hlink next hnext
    rw [linked_linked hplain] at hquery
    exact ⟨x, hlast, later, hlater, hkey, hquery⟩

/-- An administrator reads the audit log by its links while events are recorded.  The reading
ends whatever is recorded meanwhile.  The ids go down over all pages and each event is shown as
it is.  The first page keeps to the filter, all others to the filter with whole minutes, and an
event that is there at each page and matches there is shown. -/
theorem auditEvents_read (hread : AuditFilterQuery.read query = some q) (hfirst : q.cursor ≤ 0)
    (hplain : q.Plain C) :
    (∀ db : Nat → Db, (∀ k, SerialIds (db k).auditEvents) →
      ∃ m pages, Follows (fun db query => followed (adminAudit C db query))
        ((List.range m).map db) query pages) ∧
      ∀ db dbs page pages, (∀ s ∈ db :: dbs, SerialIds s.auditEvents) →
        Follows (fun db query => followed (adminAudit C db query)) (db :: dbs) query
          (page :: pages) →
        (∀ x ∈ page, db.auditEvents.row x.1 = some x.2 ∧ (q.filter C).keeps x.2 = true) ∧
          List.Forall₂ (fun db page => ∀ x ∈ page, db.auditEvents.row x.1 = some x.2 ∧
            (q.filter C).toMinutes.keeps x.2 = true) dbs pages ∧
          (page ++ pages.flatten).Pairwise (fun a b => b.1 < a.1) ∧
          ∀ id, (∃ event, db.auditEvents.row id = some event ∧
              (q.filter C).keeps event = true) →
            (∀ s ∈ dbs, ∃ event, s.auditEvents.row id = some event ∧
              (q.filter C).toMinutes.keeps event = true) →
            ∃ x ∈ page ++ pages.flatten, x.1 = id := by
  have hactor : -9223372036854775808 ≤ q.actor ∧ q.actor < 9223372036854775808 :=
    range_of_read hread
  have hcursor : (q.filter C).cursor =
      (none : Option Natᵒᵈ).map fun id => ((OrderDual.ofDual id : Nat) : Int) :=
    if_neg (by omega)
  have hanswers := fun (db : Db) (hserial : SerialIds db.auditEvents) =>
    adminAudit_answers hread hplain hactor hserial hcursor
  have hlists := audit_lists hplain hactor
  constructor
  · intro db hserial
    obtain ⟨link, hanswer, -, hlink⟩ := hanswers (db 0) (hserial 0)
    cases link with
    | none => exact ⟨1, _, .last hanswer⟩
    | some next =>
      obtain ⟨x, -, hnext⟩ := hlink next rfl
      have hdown : (Set.univ : Set Natᵒᵈ).WellFoundedOn (· > ·) := by
        rw [Set.wellFoundedOn_univ]
        exact (wellFounded_lt : WellFounded fun a b : Nat => a < b)
      have hends := hlists.ends (s := fun k => db (k + 1)) (fun k => hserial (k + 1)) hdown
        (fun _ _ _ => trivial) hnext
      obtain ⟨m, pages, hfollows⟩ := hends
      refine ⟨m + 1, pageOf latestFirst 50 (auditRows (q.filter C) (db 0)) none :: pages, ?_⟩
      rw [List.range_succ_eq_map, List.map_cons, List.map_map]
      exact .more hanswer hfollows
  · intro db dbs page pages hserial hfollows
    obtain ⟨link, hanswer, hshort, hlink⟩ := hanswers db (hserial db List.mem_cons_self)
    have hsorted := pairwise_auditRows (q.filter C) db
    cases hfollows with
    | last hpage =>
      rw [hpage] at hanswer
      cases hanswer
      have hseen := Seen.short hsorted (hshort rfl)
      have hordered := hseen.ordered
      rw [List.flatten_cons] at hordered
      refine ⟨fun x hx => mem_auditRows.mp (mem_of_mem_pageOf hx).1, .nil, ?_, ?_⟩
      · exact hordered.imp fun h => OrderDual.toDual_lt_toDual.mp h
      · intro id hfirst _
        obtain ⟨event, hevent⟩ := hfirst
        have hshown : ∃ x ∈ [pageOf latestFirst 50 (auditRows (q.filter C) db) none].flatten,
            latestFirst x = OrderDual.toDual id := by
          apply hseen.complete (OrderDual.toDual id) rfl
          intro s hs
          rw [List.mem_singleton.mp hs]
          exact ⟨(id, event), mem_auditRows.mpr hevent, rfl⟩
        exact hshown
    | more hpage hrest =>
      rw [hpage] at hanswer
      cases hanswer
      obtain ⟨last, hlast, hnext⟩ := hlink _ rfl
      have hseen := hlists.seen hrest (fun s hs => hserial s (List.mem_cons_of_mem _ hs)) hnext
      refine ⟨fun x hx => mem_auditRows.mp (mem_of_mem_pageOf hx).1, ?_, ?_, ?_⟩
      · exact hseen.current.imp fun db page hpage x hx => mem_auditRows.mp (hpage x hx)
      · exact (hseen.ordered_front hsorted hlast).imp fun h => OrderDual.toDual_lt_toDual.mp h
      · intro id hfirst hall
        obtain ⟨event, hevent⟩ := hfirst
        have hmem : (id, event) ∈ auditRows (q.filter C) db := mem_auditRows.mpr hevent
        apply hseen.complete_front hsorted hlast hmem rfl
        intro s hs
        obtain ⟨event, hevent⟩ := hall s hs
        exact ⟨(id, event), mem_auditRows.mpr hevent, rfl⟩

end Reading

/-- Two o'clock and two minutes on 4 September 2026. -/
def twoPastTwo : Instant := 1788530520 * second

/-- What `chrono` says of that minute. -/
def minuteDates : FilterDates where
  rfc3339 _ := none
  naive s format :=
    if s = "2026-09-04T14:02:30".toList ∧ format = "%Y-%m-%dT%H:%M:%S" then
      some (twoPastTwo + 30 * second)
    else if s = "2026-09-04T14:02".toList ∧ format = "%Y-%m-%dT%H:%M" then some twoPastTwo
    else none
  date _ _ := none
  minutes at' := if toMinute at' = twoPastTwo then "2026-09-04T14:02".toList else []

/-- The event of one second. -/
def eventOfSecond (n : Nat) : AuditEvent where
  actorUserId := some 1
  action := "suspend_user"
  targetType := "user"
  targetId := toString n
  result := "ok"
  metadata := .null
  createdAt := twoPastTwo + n * second

/-- The events of the first seconds of the minute. -/
def eventsUntil : Nat → Table AuditEvent
  | 0 => .empty
  | n + 1 => (eventsUntil n).insert (eventOfSecond (n + 1))

theorem next_eventsUntil (n : Nat) : (eventsUntil n).next = n + 1 := by
  induction n with
  | zero => rfl
  | succ n ih =>
    show (eventsUntil n).next + 1 = n + 1 + 1
    rw [ih]

theorem row_eventsUntil (n id : Nat) :
    (eventsUntil n).row id = if 0 < id ∧ id ≤ n then some (eventOfSecond id) else none := by
  induction n with
  | zero =>
    rw [if_neg (by omega)]
    rfl
  | succ n ih =>
    show (if id = (eventsUntil n).next then some (eventOfSecond (n + 1)) else
      (eventsUntil n).row id) = _
    rw [next_eventsUntil, ih]
    by_cases h : id = n + 1
    · rw [if_pos h, if_pos (by omega), h]
    · rw [if_neg h]
      exact if_congr (by omega) rfl rfl

/-- Ninety events of the minute. -/
def ninetyEvents : Db := { Db.empty 0 with auditEvents := eventsUntil 90 }

/-- From the middle of the minute on. -/
def sinceHalf : AuditFilterQuery where
  action := []
  targetType := []
  actor := 0
  fromText := "2026-09-04T14:02:30".toList
  toText := []
  cursor := 0

theorem plain_sinceHalf : sinceHalf.Plain minuteDates where
  action := fun c hc => by cases hc
  targetType := fun c hc => by cases hc
  fromText := by
    right
    refine ⟨twoPastTwo + 30 * second, by decide +kernel, ?_⟩
    constructor
    · decide +kernel
    · decide +kernel
    · rfl
    · decide +kernel
    · decide +kernel
    · decide +kernel
  toText := .inl ⟨by decide +kernel, fun c hc => by cases hc⟩

/-- The reading shows the event of the thirty-fifth second, on its second page. -/
theorem auditEvents_read_sinceHalf :
    ∃ m pages, Follows (fun db query => followed (adminAudit minuteDates db query))
        ((List.range m).map fun _ => ninetyEvents) (some "from=2026-09-04T14%3A02%3A30".toList)
        pages ∧
      ∃ x ∈ pages.flatten, x.1 = 35 := by
  have hread : AuditFilterQuery.read (some "from=2026-09-04T14%3A02%3A30".toList) =
      some sinceHalf := by decide +kernel
  have hserial : SerialIds ninetyEvents.auditEvents := by
    intro id event hrow
    have hrow : (eventsUntil 90).row id = some event := hrow
    rw [row_eventsUntil] at hrow
    split at hrow
    · omega
    · cases hrow
  have hevent : ninetyEvents.auditEvents.row 35 = some (eventOfSecond 35) :=
    row_eventsUntil 90 35
  have hreading := auditEvents_read hread (by decide) plain_sinceHalf
  obtain ⟨m, pages, hfollows⟩ := hreading.1 (fun _ => ninetyEvents) fun _ => hserial
  refine ⟨m, pages, hfollows, ?_⟩
  have hvalid : ∀ s ∈ (List.range m).map fun _ => ninetyEvents, s = ninetyEvents := by
    intro s hs
    obtain ⟨k, -, rfl⟩ := List.mem_map.mp hs
    rfl
  generalize (List.range m).map (fun _ => ninetyEvents) = dbs at hfollows hvalid
  match dbs, pages with
  | [], _ => cases hfollows
  | _ :: _, [] => cases hfollows
  | db :: dbs, page :: pages =>
    have hall : ∀ s ∈ db :: dbs, SerialIds s.auditEvents := by
      intro s hs
      rw [hvalid s hs]
      exact hserial
    have hseen := hreading.2 _ _ _ _ hall hfollows
    rw [List.flatten_cons]
    apply hseen.2.2.2 35
    · rw [hvalid db List.mem_cons_self]
      exact ⟨_, hevent, by decide +kernel⟩
    · intro s hs
      rw [hvalid s (List.mem_cons_of_mem _ hs)]
      exact ⟨_, hevent, by decide +kernel⟩

end BikesNest.Web
