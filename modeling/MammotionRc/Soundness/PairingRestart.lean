import MammotionRc.Soundness.PairingSaved
import MammotionRc.Soundness.SaveAtomic

/-! # A pairing survives a restart

A save that succeeds leaves the rows of the cards in memory and in the file. What the next start of the server reads
from the file are the same rows, unless a text of a card has a DEL, which the writer does not escape and the reader
refuses.
-/

namespace MammotionRc.Web

open Machine Server

/-- The texts of a card that are kept have no DEL. -/
structure PairCard.Plain (c : PairCard) : Prop where
  name : PyChar.char '\x7F' ∉ c.name.strip
  nick : PyChar.char '\x7F' ∉ (trim c.nick).strip
  host : PyChar.char '\x7F' ∉ (trim c.host).strip
  iot : PyChar.char '\x7F' ∉ trim c.iot

theorem plain_or_none (s : PyStr) :
    ((PyValue.str s).or .none).truthy = true → PlainString ((PyValue.str s).or .none) ↔ PyChar.char '\x7F' ∉ s := by
  by_cases blank : s = []
  · subst blank
    exact iff_of_true nofun List.not_mem_nil
  · have truthy : (PyValue.str s).truthy = true := decide_eq_true blank
    have kept : (PyValue.str s).or .none = .str s := if_pos truthy
    rw [kept]
    exact forall_prop_of_true truthy

theorem plain_kept (c : PairCard) : c.kept.Plain ↔ c.Plain := by
  constructor
  · rintro ⟨name, nickname, host, iotId⟩
    exact ⟨name, (plain_or_none _).mp nickname, host, (plain_or_none _).mp iotId⟩
  · rintro ⟨name, nick, host, iot⟩
    exact ⟨name, (plain_or_none _).mpr nick, host, (plain_or_none _).mpr iot⟩

/-- What a save has when it succeeds. -/
theorem onboardSave_ok {Live : Type*} {beyond : TomlRest} {newline : PyText.Newline} {swap : List Row → Live → Live}
    {site after : Site Live} {payload : PyValue} {count : ℕ}
    (saved : onboardSave beyond newline swap site payload = (.ok count, after)) :
    ∃ p bytes, prepare site payload = .ok p ∧ saveMowers newline p.norm = some bytes ∧ after.roster = some bytes ∧
      after.mowers = p.norm ∧ count = p.norm.length := by
  rw [onboardSave] at saved
  split at saved
  · cases saved
  · next p prepared =>
    split at saved
    · cases saved
    · split at saved
      · cases saved
      · next bytes written =>
        cases saved
        exact ⟨p, bytes, prepared, written, rfl, rfl, rfl⟩

theorem norm_of_prepare {Live : Type*} {site : Site Live} {cards : List PairCard} {p : Prepared}
    (prepared : prepare site (saveBody (collectRows cards)) = .ok p) :
    p.norm = (cards.filter PairCard.chosen).map PairCard.kept := by
  simp only [prepare, bind_eq_ok] at prepared
  obtain ⟨norm, made, account, _, same⟩ := prepared
  cases same
  have kept : PairRow.kept ∘ PairCard.row = PairCard.kept := funext kept_row
  rw [normalise_saveBody, collectRows_eq, List.map_map, kept] at made
  split at made
  · cases made
  · cases made
    rfl

/-- **A pairing survives a restart.** If saving the cards of the page succeeds, whatever was there before: the roster in
memory has the rows of the cards that are switched on with a host, and the next start reads the same rows from the file
if and only if none of their texts has a DEL. -/
theorem pairing_survives_restart {Live : Type*} (beyond : TomlRest) (newline : PyText.Newline)
    (swap : List Row → Live → Live) (site after : Site Live) (cards : List PairCard) (count : ℕ)
    (saved : onboardSave beyond newline swap site (saveBody (collectRows cards)) = (.ok count, after)) :
    after.mowers = (cards.filter PairCard.chosen).map PairCard.kept ∧
      (loadMowers beyond after.roster = some after.mowers ↔ ∀ c ∈ cards, c.chosen = true → c.Plain) := by
  obtain ⟨p, bytes, prepared, written, roster, mowers, _⟩ := onboardSave_ok saved
  have norm := norm_of_prepare prepared
  obtain ⟨texts, all⟩ := texts_of_saveMowers written
  rw [saveMowers_of_texts all, Option.some.injEq] at written
  refine ⟨mowers.trans norm, ?_⟩
  rw [roster, mowers, ← written, roster_comes_back (prepare_normal prepared) all, norm]
  simp only [List.forall_mem_map, plain_kept, List.mem_filter, and_imp]

/-- A server that was never set up. -/
def freshSite : Site Unit := ⟨none, none, [], (), .none, .none⟩

/-- A card of a mower that was matched. -/
def oneCard : PairCard := ⟨false, PyStr.lit "Luba-A", true, [], [], PyStr.lit "10.0.0.5", "9876".toList, true⟩

theorem pairing_survives_restart_oneCard : ∃ after,
    onboardSave (fun _ _ => none) .lf (fun _ live => live) freshSite (saveBody (collectRows [oneCard])) =
      (.ok 1, after) ∧ loadMowers (fun _ _ => none) after.roster = some after.mowers := by
  have counted : (onboardSave (fun _ _ => none) .lf (fun _ live => live) freshSite
      (saveBody (collectRows [oneCard]))).1 = .ok 1 := by decide +kernel
  generalize made : onboardSave (fun _ _ => none) .lf (fun _ live => live) freshSite
    (saveBody (collectRows [oneCard])) = result at counted
  obtain ⟨_, after⟩ := result
  cases counted
  have plain : ∀ c ∈ [oneCard], c.chosen = true → c.Plain := by
    intro c mem _
    cases List.mem_singleton.mp mem
    exact ⟨by decide, by decide, by decide, by decide⟩
  exact ⟨after, rfl, (pairing_survives_restart _ _ _ _ _ _ _ made).2.mpr plain⟩

end MammotionRc.Web
