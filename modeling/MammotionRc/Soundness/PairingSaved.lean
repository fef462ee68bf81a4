import MammotionRc.Server.OnboardSave
import MammotionRc.Web.PairingPage

/-! # What the pairing page posts is what the server keeps

The page trims the texts of JavaScript and the server those of Python, and a port goes through a text input, a Number
and JSON. The roster that the server makes of a request is read off the cards, and it refuses a request exactly if some
card that is to be saved has a name or a host that Python takes for blank.
-/

namespace MammotionRc.Web

open Machine Server

/-! ## One row -/

/-- `int(v or 9876)` of what JSON makes of a Number. -/
def rowPort (x : JsNumber) : ℤ := ((x.json.or (.int 9876)).toInt?).getD 9876

/-- The row of the roster for a row that was posted. -/
def PairRow.kept (r : PairRow) : Row :=
  ⟨.str r.name.strip, (PyValue.str (r.nickname.getD []).strip).or .none, .str r.hc33Host.strip, rowPort r.hc33Port,
    (jsonText r.iotId).or .none⟩

/-- Python takes the name or the host for blank. -/
def PairRow.blank (r : PairRow) : Bool := r.name.strip = [] ∨ r.hc33Host.strip = []

variable {r : PairRow}

theorem toInt?_rowPort (x : JsNumber) : (x.json.or (.int 9876)).toInt? = some (rowPort x) := by
  have number : ∃ n, (x.json.or (.int 9876)).toInt? = some n := by
    cases x with
    | nan => exact ⟨9876, rfl⟩
    | infinite => exact ⟨9876, rfl⟩
    | fin z =>
      rw [JsNumber.json]
      split
      · rw [PyValue.or]
        split <;> exact ⟨_, rfl⟩
      · rw [PyValue.or]
        split <;> exact ⟨_, rfl⟩
  obtain ⟨n, is⟩ := number
  rw [rowPort, is, Option.getD_some]

theorem strippedField_str {key : String} {s : PyStr} {m : PyValue} (has : m.get? key = some (.str s)) :
    strippedField m key = some s.strip := by
  rw [strippedField, has, Option.bind_some, PyValue.or]
  by_cases blank : s = []
  · subst blank
    rfl
  · rw [if_pos (show (PyValue.str s).truthy = true from decide_eq_true blank)]
    rfl

theorem strippedField_jsonText {key : String} {s : Option PyStr} {m : PyValue} (has : m.get? key = some (jsonText s)) :
    strippedField m key = some (s.getD []).strip := by
  cases s with
  | some s => exact strippedField_str has
  | none =>
    rw [strippedField, has]
    rfl

/-- The server takes a row as it was posted, or refuses it. -/
theorem normaliseRow_json (r : PairRow) :
    normaliseRow r.json = if r.blank then .error .badRequest else .ok r.kept := by
  have name : r.json.get? "name" = some (.str r.name) := rfl
  have host : r.json.get? "hc33_host" = some (.str r.hc33Host) := rfl
  have nickname : r.json.get? "nickname" = some (jsonText r.nickname) := rfl
  have iotId : r.json.get? "iot_id" = some (jsonText r.iotId) := rfl
  have port : r.json.get? "hc33_port" = some r.hc33Port.json := rfl
  rw [normaliseRow, strippedField_str name, strippedField_str host, strippedField_jsonText nickname, port, iotId,
    Option.bind_some, toInt?_rowPort]
  simp only [PairRow.blank, decide_eq_true_eq]
  rfl

/-! ## All rows -/

theorem mapM_normaliseRow (rows : List PairRow) :
    (rows.map PairRow.json).mapM normaliseRow =
      if rows.any PairRow.blank then .error .badRequest else .ok (rows.map PairRow.kept) := by
  induction rows with
  | nil => rfl
  | cons r rows ih =>
    rw [List.map_cons, List.mapM_cons, normaliseRow_json, ih, List.any_cons]
    cases r.blank with
    | true => rfl
    | false =>
      cases rows.any PairRow.blank <;> rfl

theorem normalise_saveBody (rows : List PairRow) : normalise (saveBody rows) =
    if rows.isEmpty || rows.any PairRow.blank then .error .badRequest else .ok (rows.map PairRow.kept) := by
  have items : ((PyValue.list (rows.map PairRow.json)).or (.list [])).iterate? = some (rows.map PairRow.json) := by
    cases rows <;> rfl
  have unfolded : normalise (saveBody rows) =
      (orRaise ((PyValue.list (rows.map PairRow.json)).or (.list [])).iterate? >>= fun items =>
        items.mapM normaliseRow >>= fun norm => if norm = [] then .error .badRequest else .ok norm) := rfl
  rw [unfolded, items]
  change ((rows.map PairRow.json).mapM normaliseRow >>= fun norm => if norm = [] then _ else _) = _
  rw [mapM_normaliseRow]
  cases rows with
  | nil => rfl
  | cons r rows => cases (r :: rows).any PairRow.blank <;> rfl

/-! ## The cards -/

/-- What the server makes of the number in the field of a port: 9876 of none and of zero. -/
def keptPort : JsNumber → ℤ
  | .fin z => if z = 0 then 9876 else if JsNumber.places z.natAbs ≤ 21 then JsNumber.written z else z
  | _ => 9876

namespace PairCard

/-- The card is switched on, and its host is not blank. -/
def chosen (c : PairCard) : Bool := c.included && trim c.host ≠ []

/-- Python takes the name or the host for blank. -/
def blank (c : PairCard) : Bool := c.name.strip = [] ∨ (trim c.host).strip = []

/-- The row of the roster for a card. -/
def kept (c : PairCard) : Row :=
  ⟨.str c.name.strip, (PyValue.str (trim c.nick).strip).or .none, .str (trim c.host).strip,
    keptPort (JsNumber.parseInt c.port), (PyValue.str (trim c.iot)).or .none⟩

end PairCard

theorem rowPort_default : rowPort (.fin 9876) = 9876 := by
  rw [rowPort, JsNumber.json, if_pos (JsNumber.places_small (by decide)), JsNumber.written_small (by decide)]
  rfl

theorem rowPort_of_ne_zero {z : ℤ} (ne : z ≠ 0) :
    rowPort (.fin z) = if JsNumber.places z.natAbs ≤ 21 then JsNumber.written z else z := by
  rw [rowPort, JsNumber.json]
  split
  · rw [PyValue.or, if_pos (show (PyValue.int (JsNumber.written z)).truthy = true from
      decide_eq_true (JsNumber.written_ne_zero ne))]
    rfl
  · have true_ : (PyValue.float (some (z : ℚ))).truthy = true := by
      rw [PyValue.truthy, decide_eq_true_eq, ne_eq, Option.some_inj]
      exact_mod_cast ne
    rw [PyValue.or, if_pos true_, PyValue.toInt?, Option.map_some, Int.ceil_intCast, Int.floor_intCast, ite_self]
    rfl

theorem rowPort_or (x : JsNumber) : rowPort (x.or (.fin 9876)) = keptPort x := by
  cases x with
  | nan => exact rowPort_default
  | infinite => rfl
  | fin z =>
    rw [JsNumber.or, keptPort]
    split
    · exact rowPort_default
    · next ne => exact rowPort_of_ne_zero ne

theorem getD_orNull (s : PyStr) : (orNull s).getD [] = s := by
  rw [orNull]
  split
  · next blank => exact blank.symm
  · rfl

theorem jsonText_orNull (s : PyStr) : (jsonText (orNull s)).or .none = (PyValue.str s).or .none := by
  rw [orNull]
  split
  · next blank =>
    subst blank
    rfl
  · rfl

/-- The row of a chosen card. -/
def PairCard.row (c : PairCard) : PairRow :=
  ⟨c.name, orNull (trim c.nick), orNull (trim c.iot), trim c.host, (JsNumber.parseInt c.port).or (.fin 9876)⟩

theorem row?_eq (c : PairCard) : c.row? = if c.chosen then some c.row else none := by
  rw [PairCard.row?, PairCard.chosen]
  cases c.included with
  | false => rfl
  | true =>
    by_cases blank : trim c.host = []
    · simp [blank]
    · simp [blank, PairCard.row]

theorem collectRows_eq (cards : List PairCard) : collectRows cards = (cards.filter PairCard.chosen).map PairCard.row := by
  induction cards with
  | nil => rfl
  | cons c cards ih =>
    rw [collectRows, List.filterMap_cons, row?_eq, List.filter_cons, ← collectRows, ih]
    cases c.chosen <;> rfl

theorem kept_row (c : PairCard) : c.row.kept = c.kept := by
  rw [PairRow.kept, PairCard.kept, PairCard.row]
  simp only [getD_orNull, jsonText_orNull, rowPort_or]

/-- **What the page posts is kept.** For any texts in the fields of any cards, the server makes one row of every card
that is switched on with a host, in their order, from what the card shows; it refuses the request exactly if there is
no such card or one of them has a name or a host that Python takes for blank. -/
theorem pairing_rows_saved (cards : List PairCard) : normalise (saveBody (collectRows cards)) =
    if (cards.filter PairCard.chosen).isEmpty || (cards.filter PairCard.chosen).any PairCard.blank then
      .error .badRequest
    else .ok ((cards.filter PairCard.chosen).map PairCard.kept) := by
  have kept : PairRow.kept ∘ PairCard.row = PairCard.kept := funext kept_row
  rw [normalise_saveBody, collectRows_eq, List.isEmpty_map, List.any_map, List.map_map, kept]
  rfl

end MammotionRc.Web
