import BikesNest.Auth.UserSearch
import BikesNest.Domain.SerdeJson
import BikesNest.Search.UseCases

/-!
# The data of the map

The search page hands its markers to the map's script as JSON inside a `script` element
(`build_results` and `build_browse_results` of `view.rs`).  The names in it are whatever
contributors typed, so `escape_script_json` replaces what could end the element.

`readData_mapText` says that the element ends where the page ends it and that the script reads
the value that was written.  From it, `results_markers` and `browse_markers` say which markers
the script draws: the numbered locations of the answer with the names as they are stored, and
the numbers are those of the cards.  For a box of the map, these are all locations in it or
none, and then the script draws clusters that make up their number.
-/

namespace BikesNest.Web

open BikesNest.Auth BikesNest.Search Domain SerdeJson JsonText

-- Facts about the characters of a text are decided along the text, not over all characters.
attribute [local instance (high)] List.decidableBAll

/-! ## The escaped text -/

/-- `escape_script_json`. -/
def escapeScriptJson (s : List Char) : List Char :=
  replaceChar (Char.ofNat 0x2029) "\\u2029".toList <|
    replaceChar (Char.ofNat 0x2028) "\\u2028".toList <|
      replaceChar '&' "\\u0026".toList <|
        replaceChar '>' "\\u003e".toList <| replaceChar '<' "\\u003c".toList s

/-- What the five replacements make of one character. -/
def scriptEscape (c : Char) : List Char :=
  if c = '<' then "\\u003c".toList
  else if c = '>' then "\\u003e".toList
  else if c = '&' then "\\u0026".toList
  else if c = Char.ofNat 0x2028 then "\\u2028".toList
  else if c = Char.ofNat 0x2029 then "\\u2029".toList
  else [c]

/-- None of the replacements touches what another one has written. -/
theorem escapeScriptJson_eq (s : List Char) : escapeScriptJson s = s.flatMap scriptEscape := by
  unfold escapeScriptJson replaceChar
  rw [List.flatMap_assoc, List.flatMap_assoc, List.flatMap_assoc, List.flatMap_assoc]
  congr 1
  funext c
  unfold scriptEscape
  split_ifs with hless hgreater hand hline hparagraph
  · subst hless
    decide +kernel
  · subst hgreater
    decide +kernel
  · subst hand
    decide +kernel
  · subst hline
    decide +kernel
  · subst hparagraph
    decide +kernel
  · simp only [if_neg hgreater, if_neg hand, if_neg hline, if_neg hparagraph, List.flatMap_cons,
      List.flatMap_nil, List.append_nil]

/-- The characters that can stand in the element: no markup, no line ends of scripts and no
control characters, which the reader of a page would not leave as they are. -/
def isIslandChar (c : Char) : Bool :=
  32 ≤ c.toNat && !(['<', '>', '&', Char.ofNat 0x2028, Char.ofNat 0x2029].contains c)

theorem scriptEscape_of_isIslandChar {c : Char} (h : isIslandChar c = true) :
    scriptEscape c = [c] := by
  simp only [isIslandChar, Bool.and_eq_true, Bool.not_eq_true', List.contains_eq_mem,
    decide_eq_false_iff_not, List.mem_cons, List.not_mem_nil, or_false, not_or] at h
  obtain ⟨-, hless, hgreater, hand, hline, hparagraph⟩ := h
  rw [scriptEscape, if_neg hless, if_neg hgreater, if_neg hand, if_neg hline, if_neg hparagraph]

theorem isIslandChar_of_isTokenChar {c : Char} (h : isTokenChar c = true) :
    isIslandChar c = true := by
  simp only [isTokenChar, isNumberChar, Bool.or_eq_true, List.contains_eq_mem,
    decide_eq_true_eq, List.mem_cons, List.not_mem_nil, or_false, or_assoc] at h
  rcases h with hdigit | h
  · have hrange : 48 ≤ c.toNat ∧ c.toNat ≤ 57 := by
      simp only [Char.isDigit, Bool.and_eq_true, decide_eq_true_eq, ge_iff_le,
        UInt32.le_iff_toNat_le] at hdigit
      exact hdigit
    have hall : ∀ v ≤ 57, 48 ≤ v → isIslandChar (Char.ofNat v) = true := by decide +kernel
    have hc := hall c.toNat hrange.2 hrange.1
    rwa [Char.ofNat_toNat] at hc
  · have hall : ∀ d ∈ ['-', '+', '.', 'e', 'E', '"', '[', ']', '{', '}', ',', ':', 'n', 'u', 'l',
        't', 'r', 'f', 'a', 's'], isIslandChar d = true := by decide +kernel
    exact hall c (by simpa using h)

/-- What `serde_json` writes for a character is in the element, or is the character. -/
theorem escape_cases (c : Char) :
    (∀ d ∈ escape c, isIslandChar d = true) ∨ 32 ≤ c.toNat ∧ escape c = [c] := by
  unfold escape
  cases hfind : shortEscapes.find? fun p => p.1 = c with
  | some p =>
    have hall : ∀ p ∈ shortEscapes, ∀ d ∈ ['\\', p.2], isIslandChar d = true := by
      decide +kernel
    exact .inl (hall p (List.mem_of_find?_eq_some hfind))
  | none =>
    by_cases hcontrol : c.toNat < 0x20
    · have hall : ∀ n < 16, isIslandChar (hexDigit n) = true := by decide +kernel
      have hstart : ∀ d ∈ ['\\', 'u', '0'], isIslandChar d = true := by decide +kernel
      refine .inl fun d hd => ?_
      simp only [if_pos hcontrol, List.mem_cons, List.not_mem_nil, or_false] at hd
      rcases hd with rfl | rfl | rfl | rfl | rfl | rfl
      · exact hstart _ (.head _)
      · exact hstart _ (.tail _ (.head _))
      · exact hstart _ (.tail _ (.tail _ (.head _)))
      · exact hstart _ (.tail _ (.tail _ (.head _)))
      · exact hall _ (by omega)
      · exact hall _ (by omega)
    · refine .inr ⟨by omega, ?_⟩
      simp only [if_neg hcontrol]

/-- How a character of a string is written in the element. -/
def islandEscape (c : Char) : List Char := (escape c).flatMap scriptEscape

theorem islandEscape_cases (c : Char) :
    islandEscape c = escape c ∧ (∀ d ∈ escape c, isIslandChar d = true) ∨
      islandEscape c = scriptEscape c ∧
        c ∈ ['<', '>', '&', Char.ofNat 0x2028, Char.ofNat 0x2029] := by
  have hkept : (∀ d ∈ escape c, isIslandChar d = true) → islandEscape c = escape c := fun h =>
    flatMap_fixed fun d hd => scriptEscape_of_isIslandChar (h d hd)
  rcases escape_cases c with h | ⟨hlow, h⟩
  · exact .inl ⟨hkept h, h⟩
  · by_cases hc : c ∈ ['<', '>', '&', Char.ofNat 0x2028, Char.ofNat 0x2029]
    · exact .inr ⟨by rw [islandEscape, h, List.flatMap_singleton], hc⟩
    · have hall : ∀ d ∈ escape c, isIslandChar d = true := by
        intro d hd
        rw [h] at hd
        rw [List.mem_singleton.mp hd, isIslandChar, List.contains_eq_mem, decide_eq_false hc,
          decide_eq_true hlow]
        rfl
      exact .inl ⟨hkept hall, hall⟩

/-- Each character is read from the element as it was. -/
theorem escapes_islandEscape : Escapes islandEscape := by
  intro c rest
  rcases islandEscape_cases c with ⟨h, -⟩ | ⟨h, hc⟩
  · rw [h]
    exact escapes_escape c rest
  · rw [h]
    simp only [List.mem_cons, List.not_mem_nil, or_false] at hc
    rcases hc with rfl | rfl | rfl | rfl | rfl <;> rfl

theorem isIslandChar_islandEscape (c : Char) : ∀ d ∈ islandEscape c, isIslandChar d = true := by
  have hall : ∀ c ∈ ['<', '>', '&', Char.ofNat 0x2028, Char.ofNat 0x2029],
      ∀ d ∈ scriptEscape c, isIslandChar d = true := by decide +kernel
  rcases islandEscape_cases c with ⟨h, hd⟩ | ⟨h, hc⟩
  · rw [h]
    exact hd
  · rw [h]
    exact hall c hc

/-! ## The element -/

/-- The text of an element that begins here, up to its end tag.  There is none where a browser
would not take the characters as they are: at other markup and at control characters. -/
def scriptText : List Char → Option (List Char)
  | [] => none
  | c :: rest =>
    if c = '<' then if "/script>".toList.isPrefixOf rest then some [] else none
    else if c.toNat < 32 then none
    else (scriptText rest).map (c :: ·)

theorem scriptText_append {s : List Char} (h : ∀ c ∈ s, isIslandChar c = true)
    (rest : List Char) : scriptText (s ++ "</script>".toList ++ rest) = some s := by
  induction s with
  | nil => rfl
  | cons c s ih =>
    have hc := h c List.mem_cons_self
    have hs := ih fun d hd => h d (List.mem_cons_of_mem _ hd)
    have hlow : ¬ c.toNat < 32 := by
      simp only [isIslandChar, Bool.and_eq_true, decide_eq_true_eq] at hc
      omega
    have hless : c ≠ '<' := by
      intro h
      rw [h] at hc
      cases hc
    rw [List.cons_append, List.cons_append, scriptText, if_neg hless, if_neg hlow, hs]
    rfl

/-- The text that a value has in the page. -/
def mapText (F : SerdeJson.FloatText) (v : Value) : List Char := escapeScriptJson (toText F v)

/-- `readData` of `search.js`, on the page behind the start tag. -/
def readData (F : SerdeJson.FloatText) (page : List Char) : Option Value :=
  (scriptText page).bind (fromText F)

section Element

variable {F : SerdeJson.FloatText} {v : Value} (h : ∀ n ∈ v.numbers, n.Fits F)

include h

theorem mapText_eq : mapText F v = write (numbers F) islandEscape v := by
  have hfixed : ∀ c, isTokenChar c = true → scriptEscape c = [c] := fun c hc =>
    scriptEscape_of_isIslandChar (isIslandChar_of_isTokenChar hc)
  rw [mapText, escapeScriptJson_eq, toText,
    write_flatMap hfixed v fun n hn => (h n hn).faithful]
  rfl

/-- Nothing in the text ends the element or begins another one. -/
theorem isIslandChar_mapText : ∀ c ∈ mapText F v, isIslandChar c = true := by
  rw [mapText_eq h]
  intro c hc
  rcases forall_mem_write v (fun n hn => (h n hn).faithful) c hc with hc | ⟨d, hd⟩
  · exact isIslandChar_of_isTokenChar hc
  · exact isIslandChar_islandEscape d c hd

/-- The script reads the value that was written, whatever comes behind it. -/
theorem readData_mapText (rest : List Char) :
    readData F (mapText F v ++ "</script>".toList ++ rest) = some v := by
  have htext := scriptText_append (isIslandChar_mapText h) rest
  have hparse := parse_write escapes_islandEscape v fun n hn => (h n hn).faithful
  rw [readData, htext, Option.bind_some, mapText_eq h]
  exact hparse

end Element

/-! ## The markers -/

/-- The labels of a language. -/
structure Labels where
  distance : Rat → List Char
  cost : Cost → List Char

/-- What a card and a marker have in common. -/
structure CardVm where
  id : Nat
  n : Nat
  name : List Char
  distanceLabel : List Char
  costLabel : List Char
  url : List Char
  lat : Rat
  lon : Rat

/-- The link to a location. -/
def parkingUrl (id : Nat) : List Char := "/parking/".toList ++ Nat.toDigits 10 id

/-- `CardVm::from_summary`. -/
def CardVm.fromSummary (labels : Labels) (s : ParkingSummary) : CardVm where
  id := s.id
  n := 0
  name := s.name.toList
  distanceLabel := labels.distance s.distanceM
  costLabel := labels.cost s.cost
  url := parkingUrl s.id
  lat := s.point.lat
  lon := s.point.lon

structure MapItemVm where
  id : Nat
  n : Nat
  lat : Rat
  lon : Rat
  name : List Char
  distanceLabel : List Char
  costLabel : List Char
  href : List Char
deriving DecidableEq

/-- `MapItemVm::from_card`. -/
def MapItemVm.fromCard (c : CardVm) (n : Nat) : MapItemVm where
  id := c.id
  n := n
  lat := c.lat
  lon := c.lon
  name := c.name
  distanceLabel := c.distanceLabel
  costLabel := c.costLabel
  href := c.url

/-- `MapItemVm::from_summary`. -/
def MapItemVm.fromSummary (labels : Labels) (s : ParkingSummary) (n : Nat) : MapItemVm where
  id := s.id
  n := n
  lat := s.point.lat
  lon := s.point.lon
  name := s.name.toList
  distanceLabel := labels.distance s.distanceM
  costLabel := labels.cost s.cost
  href := parkingUrl s.id

/-- The members of a marker's object, in the order of their keys. -/
def MapItemVm.members (m : MapItemVm) : List (List Char × Value) :=
  [("cost_label".toList, .str m.costLabel), ("distance_label".toList, .str m.distanceLabel),
    ("href".toList, .str m.href), ("id".toList, .num (.int m.id)),
    ("lat".toList, .num (.float m.lat)), ("lon".toList, .num (.float m.lon)),
    ("n".toList, .num (.int m.n)), ("name".toList, .str m.name)]

def MapItemVm.toJson (m : MapItemVm) : Value := .obj m.members

/-- A marker as the script reads it. -/
def MapItemVm.ofJson (F : SerdeJson.FloatText) (v : Value) : Option MapItemVm := do
  let id ← (SerdeJson.get v "id".toList).bind asI64
  let n ← (SerdeJson.get v "n".toList).bind asI64
  let lat ← (SerdeJson.get v "lat".toList).bind (asF64 F)
  let lon ← (SerdeJson.get v "lon".toList).bind (asF64 F)
  let name ← (SerdeJson.get v "name".toList).bind asStr
  let distanceLabel ← (SerdeJson.get v "distance_label".toList).bind asStr
  let costLabel ← (SerdeJson.get v "cost_label".toList).bind asStr
  let href ← (SerdeJson.get v "href".toList).bind asStr
  return { id := id.toNat, n := n.toNat, lat, lon, name, distanceLabel, costLabel, href }

/-- The markers that the script draws: `data.items`. -/
def readMarkers (F : SerdeJson.FloatText) (v : Value) : Option (List MapItemVm) :=
  match SerdeJson.get v "items".toList with
  | some (.arr items) => items.mapM (MapItemVm.ofJson F)
  | _ => none

/-- The cards of a list, numbered from one on. -/
def numberedCards (labels : Labels) (items : List ParkingSummary) : List CardVm :=
  items.zipIdx.map fun x => { CardVm.fromSummary labels x.1 with n := x.2 + 1 }

/-- The markers of a list, numbered from one on. -/
def numberedMarkers (labels : Labels) (items : List ParkingSummary) : List MapItemVm :=
  items.zipIdx.map fun x => MapItemVm.fromSummary labels x.1 (x.2 + 1)

/-- `ResultsData`, as far as it has locations. -/
structure ResultsData where
  items : List CardVm
  mapJson : List Char

/-- `build_results`. -/
def buildResults (F : SerdeJson.FloatText) (labels : Labels) (page : SearchPage)
    (hit : Option GeoHit) : ResultsData where
  items := numberedCards labels page.items
  mapJson := mapText F <| .obj [
    ("items".toList,
      .arr ((numberedCards labels page.items).map fun c => (MapItemVm.fromCard c c.n).toJson)),
    ("origin".toList,
      match hit with
      | none => .null
      | some hit => .obj [("label".toList, .str hit.label.toList),
          ("lat".toList, .num (.float hit.point.lat)),
          ("lon".toList, .num (.float hit.point.lon))])]

def Cluster.toJson (c : Cluster) : Value :=
  .obj [("count".toList, .num (.int c.count)), ("lat".toList, .num (.float c.lat)),
    ("lon".toList, .num (.float c.lon))]

/-- A cluster as the script reads it. -/
def Cluster.ofJson (F : SerdeJson.FloatText) (v : Value) : Option Cluster := do
  let count ← (SerdeJson.get v "count".toList).bind asI64
  let lat ← (SerdeJson.get v "lat".toList).bind (asF64 F)
  let lon ← (SerdeJson.get v "lon".toList).bind (asF64 F)
  return { lat, lon, count := count.toNat }

/-- The clusters that the script draws: `data.clusters`. -/
def readClusters (F : SerdeJson.FloatText) (v : Value) : Option (List Cluster) :=
  match SerdeJson.get v "clusters".toList with
  | some (.arr clusters) => clusters.mapM (Cluster.ofJson F)
  | _ => none

/-- `BROWSE_LIST_CAP`. -/
def browseListCap : Nat := 50

/-- `build_browse_results`. -/
def buildBrowseResults (F : SerdeJson.FloatText) (labels : Labels) (bounds : BoundsQuery)
    (page : BoundsPage) : ResultsData where
  items := numberedCards labels (page.items.take (min page.items.length browseListCap))
  mapJson := mapText F <| .obj [
    ("bbox".toList, .arr [.num (.float bounds.west), .num (.float bounds.south),
      .num (.float bounds.east), .num (.float bounds.north)]),
    ("clusters".toList, .arr (page.clusters.map Cluster.toJson)),
    ("items".toList, .arr ((numberedMarkers labels page.items).map MapItemVm.toJson)),
    ("origin".toList, .null),
    ("total".toList, .num (.int page.total))]

section Markers

variable {F : SerdeJson.FloatText} {labels : Labels}

/-- A card and the marker of its location agree. -/
theorem fromCard_numberedCards (items : List ParkingSummary) :
    (numberedCards labels items).map (fun c => MapItemVm.fromCard c c.n) =
      numberedMarkers labels items := by
  rw [numberedCards, List.map_map]
  rfl

/-- The numbers of a list that stops are those of the whole list. -/
theorem numberedMarkers_take (items : List ParkingSummary) (n : Nat) :
    numberedMarkers labels (items.take n) = (numberedMarkers labels items).take n := by
  have hindex : (items.take n).zipIdx = items.zipIdx.take n := by
    apply List.ext_getElem?
    intro i
    rw [List.getElem?_take, List.getElem?_zipIdx, List.getElem?_zipIdx, List.getElem?_take]
    split
    · rfl
    · rfl
  rw [numberedMarkers, numberedMarkers, hindex, List.map_take]

/-- A marker whose numbers fit. -/
structure MapItemVm.Fits (F : SerdeJson.FloatText) (m : MapItemVm) : Prop where
  id : m.id < 9223372036854775808
  n : m.n < 9223372036854775808
  lat : F.Faithful m.lat
  lon : F.Faithful m.lon

theorem MapItemVm.Fits.numbers {m : MapItemVm} (h : m.Fits F) :
    ∀ n ∈ m.toJson.numbers, n.Fits F := by
  have hnumbers : m.toJson.numbers =
      [.int m.id, .float m.lat, .float m.lon, .int m.n] := by rfl
  rw [hnumbers]
  intro n hn
  simp only [List.mem_cons, List.not_mem_nil, or_false] at hn
  rcases hn with rfl | rfl | rfl | rfl
  · exact fits_natCast h.id
  · exact h.lat
  · exact h.lon
  · exact fits_natCast h.n

theorem MapItemVm.get_toJson (m : MapItemVm) {key : List Char} {v : Value}
    (h : (key, v) ∈ m.members) : SerdeJson.get m.toJson key = some v := by
  have hkeys : (m.members.map Prod.fst).Nodup := by
    show (["cost_label".toList, "distance_label".toList, "href".toList, "id".toList,
      "lat".toList, "lon".toList, "n".toList, "name".toList]).Nodup
    decide +kernel
  exact get_of_mem hkeys h

theorem MapItemVm.ofJson_toJson {m : MapItemVm} (h : m.Fits F) :
    MapItemVm.ofJson F m.toJson = some m := by
  have hid := bind_asI64 h.id
  have hn := bind_asI64 h.n
  have hcost := m.get_toJson (.head _)
  have hdistance := m.get_toJson (.tail _ (.head _))
  have hhref := m.get_toJson (.tail _ (.tail _ (.head _)))
  have hgetId := m.get_toJson (.tail _ (.tail _ (.tail _ (.head _))))
  have hlat := m.get_toJson (.tail _ (.tail _ (.tail _ (.tail _ (.head _)))))
  have hlon := m.get_toJson (.tail _ (.tail _ (.tail _ (.tail _ (.tail _ (.head _))))))
  have hgetN := m.get_toJson (.tail _ (.tail _ (.tail _ (.tail _ (.tail _ (.tail _ (.head _)))))))
  have hname := m.get_toJson
    (.tail _ (.tail _ (.tail _ (.tail _ (.tail _ (.tail _ (.tail _ (.head _))))))))
  rw [MapItemVm.ofJson, hgetId, hgetN, hlat, hlon, hname, hdistance, hcost, hhref, hid, hn]
  simp only [Option.bind_eq_bind, Option.bind_some, asF64, asStr, Option.pure_def,
    Int.toNat_natCast]

/-- A list is read back when each of its elements is. -/
theorem mapM_toJson {α : Type} {toJson : α → Value} {ofJson : Value → Option α} {l : List α}
    (h : ∀ a ∈ l, ofJson (toJson a) = some a) : (l.map toJson).mapM ofJson = some l := by
  induction l with
  | nil => rfl
  | cons a l ih =>
    have ha := h a List.mem_cons_self
    have hrest := ih fun b hb => h b (List.mem_cons_of_mem _ hb)
    rw [List.map_cons, List.mapM_cons, ha, hrest]
    rfl

/-- A cluster whose numbers fit. -/
structure Cluster.Fits (F : SerdeJson.FloatText) (c : Cluster) : Prop where
  count : c.count < 9223372036854775808
  lat : F.Faithful c.lat
  lon : F.Faithful c.lon

theorem Cluster.ofJson_toJson {c : Cluster} (h : Cluster.Fits F c) :
    Cluster.ofJson F (Cluster.toJson c) = some c := by
  let fields : List (List Char × Value) := [("count".toList, .num (.int c.count)),
    ("lat".toList, .num (.float c.lat)), ("lon".toList, .num (.float c.lon))]
  have hkeys : (fields.map Prod.fst).Nodup := by
    show (["count".toList, "lat".toList, "lon".toList]).Nodup
    decide +kernel
  have hget : ∀ {key v}, (key, v) ∈ fields → SerdeJson.get (Cluster.toJson c) key = some v :=
    fun hmem => get_of_mem hkeys hmem
  have hcount := hget (.head _)
  have hlat := hget (.tail _ (.head _))
  have hlon := hget (.tail _ (.tail _ (.head _)))
  rw [Cluster.ofJson, hcount, hlat, hlon, bind_asI64 h.count]
  simp only [Option.bind_eq_bind, Option.bind_some, asF64, Option.pure_def, Int.toNat_natCast]

theorem itemNumbers_markers {markers : List MapItemVm} (h : ∀ m ∈ markers, m.Fits F) :
    ∀ n ∈ itemNumbers (markers.map MapItemVm.toJson), n.Fits F := by
  induction markers with
  | nil => exact fun n hn => by cases hn
  | cons m markers ih =>
    intro n hn
    rcases List.mem_append.mp hn with hn | hn
    · exact (h m List.mem_cons_self).numbers n hn
    · exact ih (fun m' hm' => h m' (List.mem_cons_of_mem _ hm')) n hn

theorem itemNumbers_clusters {clusters : List Cluster} (h : ∀ c ∈ clusters, Cluster.Fits F c) :
    ∀ n ∈ itemNumbers (clusters.map Cluster.toJson), n.Fits F := by
  induction clusters with
  | nil => exact fun n hn => by cases hn
  | cons c clusters ih =>
    have hc := h c List.mem_cons_self
    intro n hn
    rcases List.mem_append.mp hn with hn | hn
    · have hn : n ∈ [Number.int c.count, .float c.lat, .float c.lon] := hn
      simp only [List.mem_cons, List.not_mem_nil, or_false] at hn
      rcases hn with rfl | rfl | rfl
      · exact fits_natCast hc.count
      · exact hc.lat
      · exact hc.lon
    · exact ih (fun c' hc' => h c' (List.mem_cons_of_mem _ hc')) n hn

/-- The locations of a list whose numbers fit. -/
def FitItems (F : SerdeJson.FloatText) (items : List ParkingSummary) : Prop :=
  items.length < 9223372036854775808 ∧
    ∀ s ∈ items, s.id < 9223372036854775808 ∧ F.Faithful s.point.lat ∧ F.Faithful s.point.lon

theorem FitItems.markers {items : List ParkingSummary} (h : FitItems F items) :
    ∀ m ∈ numberedMarkers labels items, m.Fits F := by
  intro m hm
  obtain ⟨x, hx, rfl⟩ := List.mem_map.mp hm
  have hindex := List.mem_zipIdx hx
  have hlength := h.1
  have hmem : x.1 ∈ items := by
    rw [hindex.2.2]
    exact List.getElem_mem _
  obtain ⟨hid, hlat, hlon⟩ := h.2 x.1 hmem
  refine ⟨hid, ?_, hlat, hlon⟩
  show x.2 + 1 < 9223372036854775808
  omega

/-- The script draws these markers, whatever comes behind the text in the page. -/
def Draws (F : SerdeJson.FloatText) (text : List Char) (markers : List MapItemVm) : Prop :=
  ∀ rest, (readData F (text ++ "</script>".toList ++ rest)).bind (readMarkers F) = some markers

/-- The script draws these clusters, whatever comes behind the text in the page. -/
def DrawsClusters (F : SerdeJson.FloatText) (text : List Char) (clusters : List Cluster) : Prop :=
  ∀ rest, (readData F (text ++ "</script>".toList ++ rest)).bind (readClusters F) = some clusters

theorem draws_of_items {fields : List (List Char × Value)} {markers : List MapItemVm}
    (hnodup : (fields.map Prod.fst).Nodup)
    (hitems : ("items".toList, .arr (markers.map MapItemVm.toJson)) ∈ fields)
    (hmarkers : ∀ m ∈ markers, m.Fits F) (hfits : ∀ n ∈ fieldNumbers fields, n.Fits F) :
    Draws F (mapText F (.obj fields)) markers := by
  intro rest
  have hread := readData_mapText (v := .obj fields) hfits rest
  have hget := get_of_mem hnodup hitems
  rw [hread, Option.bind_some, readMarkers, hget]
  exact mapM_toJson fun m hm => MapItemVm.ofJson_toJson (hmarkers m hm)

/-- The markers of a page of results are its locations, with the numbers of their cards and with
the names that are stored. -/
theorem results_markers {page : SearchPage} {hit : Option GeoHit} (h : FitItems F page.items)
    (hhit : ∀ x ∈ hit, F.Faithful x.point.lat ∧ F.Faithful x.point.lon) :
    Draws F (buildResults F labels page hit).mapJson (numberedMarkers labels page.items) ∧
      (buildResults F labels page hit).items.map (fun c => MapItemVm.fromCard c c.n) =
        numberedMarkers labels page.items := by
  have hcards : (numberedCards labels page.items).map (fun c => MapItemVm.fromCard c c.n) =
      numberedMarkers labels page.items := fromCard_numberedCards page.items
  have hjson : (numberedCards labels page.items).map
      (fun c => (MapItemVm.fromCard c c.n).toJson) =
      (numberedMarkers labels page.items).map MapItemVm.toJson := by
    rw [← hcards, List.map_map]
    rfl
  refine ⟨?_, hcards⟩
  unfold buildResults
  rw [hjson]
  refine draws_of_items ?_ (.head _) h.markers ?_
  · show (["items".toList, "origin".toList]).Nodup
    decide +kernel
  · intro n hn
    rcases List.mem_append.mp hn with hn | hn
    · exact itemNumbers_markers h.markers n hn
    · cases hit with
      | none => cases hn
      | some hit =>
        have hpoint := hhit hit rfl
        have hn : n ∈ [Number.float hit.point.lat, .float hit.point.lon] := hn
        simp only [List.mem_cons, List.not_mem_nil, or_false] at hn
        rcases hn with rfl | rfl
        · exact hpoint.1
        · exact hpoint.2

theorem parse_limit {M : MapEngine} {raw : String} {filters : Filters} {limit : Nat}
    {q : BoundsQuery} (h : BoundsQuery.parse M raw filters limit = some q) :
    q.limit = max 1 (min limit browseMarkerCap) := by
  unfold BoundsQuery.parse at h
  split at h
  · split_ifs at h
    cases h
    rfl
  · cases h

/-- An answer of the use case is one of the reader, for as many rows as the map has markers. -/
theorem browse_ok {R : MapReader} {db : Store.Db} {now : Instant} {input : SearchInput}
    {bounds : BoundsQuery} {page : BoundsPage}
    (h : SearchParking.browse R db now input = .ok (bounds, page)) :
    bounds.limit = browseMarkerCap ∧ inBoundsAt R db bounds now = .ok page := by
  unfold SearchParking.browse SearchParking.browseQuery at h
  split at h
  · cases h
  · rename_i q hquery
    split at hquery
    · cases hquery
    · split at hquery
      · rename_i hparse
        cases hquery
        split at h
        · cases h
        · rename_i hpage
          cases h
          exact ⟨parse_limit hparse, hpage⟩
      · cases hquery

/-- On the browsed map the locations of the answer are drawn, with the numbers of their cards, and
its clusters.  The answer has all locations of the box while the map has markers for them, and
else none, but clusters that make up their number. -/
theorem browse_markers {R : MapReader} {db : Store.Db} {now : Instant} {input : SearchInput}
    {bounds : BoundsQuery} {page : BoundsPage}
    (hbrowse : SearchParking.browse R db now input = .ok (bounds, page))
    (hitems : FitItems F page.items)
    (hbounds : ∀ q ∈ [bounds.west, bounds.south, bounds.east, bounds.north], F.Faithful q)
    (hclusters : ∀ c ∈ page.clusters, Cluster.Fits F c)
    (htotal : page.total < 9223372036854775808) :
    let results := buildBrowseResults F labels bounds page
    Draws F results.mapJson (numberedMarkers labels page.items) ∧
      DrawsClusters F results.mapJson page.clusters ∧
      results.items.map (fun c => MapItemVm.fromCard c c.n) =
        (numberedMarkers labels page.items).take browseListCap ∧
      bounds.limit = browseMarkerCap ∧ ExactOrClustered R.engine db bounds now page := by
  intro results
  let fields : List (List Char × Value) := [
    ("bbox".toList, .arr [.num (.float bounds.west), .num (.float bounds.south),
      .num (.float bounds.east), .num (.float bounds.north)]),
    ("clusters".toList, .arr (page.clusters.map Cluster.toJson)),
    ("items".toList, .arr ((numberedMarkers labels page.items).map MapItemVm.toJson)),
    ("origin".toList, .null),
    ("total".toList, .num (.int page.total))]
  have hjson : results.mapJson = mapText F (.obj fields) := rfl
  have hnodup : (fields.map Prod.fst).Nodup := by
    show (["bbox".toList, "clusters".toList, "items".toList, "origin".toList,
      "total".toList]).Nodup
    decide +kernel
  have hfits : ∀ n ∈ fieldNumbers fields, n.Fits F := by
    intro n hn
    rcases List.mem_append.mp hn with hn | hn
    · have hn : n ∈ [bounds.west, bounds.south, bounds.east, bounds.north].map Number.float := hn
      obtain ⟨q, hq, rfl⟩ := List.mem_map.mp hn
      exact hbounds q hq
    · rcases List.mem_append.mp hn with hn | hn
      · exact itemNumbers_clusters hclusters n hn
      · rcases List.mem_append.mp hn with hn | hn
        · exact itemNumbers_markers hitems.markers n hn
        · have hn : n ∈ [Number.int page.total] := hn
          rw [List.mem_singleton.mp hn]
          exact fits_natCast htotal
  obtain ⟨hlimit, hpage⟩ := browse_ok hbrowse
  refine ⟨?_, ?_, ?_, hlimit, exactOrClustered_of_inBoundsAt hpage⟩
  · exact draws_of_items hnodup (.tail _ (.tail _ (.head _))) hitems.markers hfits
  · intro rest
    have hget : SerdeJson.get (.obj fields) "clusters".toList = _ :=
      get_of_mem hnodup (.tail _ (.head _))
    rw [hjson, readData_mapText (v := .obj fields) hfits rest, Option.bind_some, readClusters, hget]
    exact mapM_toJson fun c hc => Cluster.ofJson_toJson (hclusters c hc)
  · show (numberedCards labels (page.items.take (min page.items.length browseListCap))).map
      (fun c => MapItemVm.fromCard c c.n) = _
    rw [fromCard_numberedCards, numberedMarkers_take]
    have hlength : (numberedMarkers labels page.items).length = page.items.length := by
      rw [numberedMarkers, List.length_map, List.length_zipIdx]
    rw [← hlength, Nat.min_comm, ← List.take_take, List.take_length]

end Markers

/-- A location whose name tries to end the element. -/
def taggedRack : ParkingSummary where
  id := 7
  name := "</script><img src=x onerror=alert(1)>"
  address := "Main street 1"
  parkingType := .rack
  cost := .free
  point := ⟨0, 0, GeoPoint.zero_lat, GeoPoint.zero_lon⟩
  distanceM := 0
  securityYes := []
  rating := (none, 0)
  lastVerifiedAt := none
  timezone := "UTC"
  isOpenNow := true
  photoKey := none
  sortKey := some 0

theorem fitItems_taggedRack : FitItems threeFloats [taggedRack] := by
  have hzero := threeFloats_faithful 0 (by decide)
  refine ⟨by decide, ?_⟩
  intro s hs
  rw [List.mem_singleton.mp hs]
  exact ⟨by decide, hzero, hzero⟩

def someLabels : Labels := ⟨fun _ => "0 m".toList, fun _ => "Free".toList⟩

theorem results_markers_taggedRack :
    Draws threeFloats (buildResults threeFloats someLabels ⟨[taggedRack], 1, none⟩ none).mapJson
        (numberedMarkers someLabels [taggedRack]) ∧
      (buildResults threeFloats someLabels ⟨[taggedRack], 1, none⟩ none).items.map
          (fun c => MapItemVm.fromCard c c.n) =
        numberedMarkers someLabels [taggedRack] :=
  results_markers fitItems_taggedRack fun _ h => by cases h

/-- The map of a reader that knows the numbers of one box. -/
def boxReader : MapReader where
  engine :=
    { oneSpotMap with
      parseF64 := fun s =>
        if s = "-1" then some (.finite (-1)) else if s = "0" then some (.finite 0) else none }
  recommendation := oneSpot.recommendation
  thresholds := oneSpot.thresholds

/-- The box. -/
def boxInput : SearchInput where
  bbox := some "-1,-1,0,0"

/-- The location in the database. -/
def taggedDb : Store.Db :=
  { Store.Db.empty 0 with
    parkingLocation := Relational.Table.empty.insert
      { row := { rackRow with name := taggedRack.name } } }

theorem boxReader_browses :
    (SearchParking.browse boxReader taggedDb 0 boxInput).toOption.any (fun r =>
      [r.1.west, r.1.south, r.1.east, r.1.north] = [-1, -1, 0, 0] && r.2.clusters = [] &&
        r.2.total = 1 && r.2.items.map (fun s => (s.id, s.point.lat, s.point.lon)) = [(1, 0, 0)]) =
      true := by
  decide +kernel

theorem browse_markers_taggedRack :
    ∃ bounds page, SearchParking.browse boxReader taggedDb 0 boxInput = .ok (bounds, page) ∧
      let results := buildBrowseResults threeFloats someLabels bounds page
      Draws threeFloats results.mapJson (numberedMarkers someLabels page.items) ∧
        DrawsClusters threeFloats results.mapJson page.clusters ∧
        results.items.map (fun c => MapItemVm.fromCard c c.n) =
          (numberedMarkers someLabels page.items).take browseListCap ∧
        bounds.limit = browseMarkerCap ∧
        ExactOrClustered boxReader.engine taggedDb bounds 0 page := by
  have hbrowses := boxReader_browses
  cases hbrowse : SearchParking.browse boxReader taggedDb 0 boxInput with
  | error e =>
    rw [hbrowse] at hbrowses
    cases hbrowses
  | ok answer =>
    obtain ⟨bounds, page⟩ := answer
    rw [hbrowse] at hbrowses
    simp only [Except.toOption, Option.any_some, Bool.and_eq_true, decide_eq_true_eq] at hbrowses
    obtain ⟨⟨⟨hbox, hclusters⟩, htotal⟩, hitems⟩ := hbrowses
    have hlength := congrArg List.length hitems
    rw [List.length_map] at hlength
    refine ⟨bounds, page, rfl, browse_markers hbrowse ⟨?_, fun s hs => ?_⟩ ?_ ?_ ?_⟩
    · rw [hlength]
      decide
    · have hmem := List.mem_map_of_mem (f := fun s : ParkingSummary =>
        (s.id, s.point.lat, s.point.lon)) hs
      rw [hitems, List.mem_singleton, Prod.mk.injEq, Prod.mk.injEq] at hmem
      rw [hmem.1, hmem.2.1, hmem.2.2]
      have hzero := threeFloats_faithful 0 (by decide)
      exact ⟨by decide, hzero, hzero⟩
    · rw [hbox]
      intro q hq
      apply threeFloats_faithful
      simp only [List.mem_cons, List.not_mem_nil, or_false] at hq
      rcases hq with rfl | rfl | rfl | rfl <;> decide
    · rw [hclusters]
      exact fun c hc => by cases hc
    · rw [htotal]
      decide

end BikesNest.Web
