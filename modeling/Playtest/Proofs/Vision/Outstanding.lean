import Playtest.Proofs.Criteria.Keys
import Playtest.Proofs.Vision.Correlation

/-!
# Who awaits an outstanding request

A request is outstanding under a key from the time it was sent until it is abandoned. Preparing
criteria makes requests outstanding for the vision criteria among them and for no other
(`Coordinator.expects_prepare`), and releasing the beginning of a key leaves nothing outstanding
below it (`Coordinator.expects_release`).

A request is **stray** if nobody awaits it any more. Whoever works with a coordinator awaits some
keys before and some keys afterwards, and `Coordinator.NoStrays` says that no request has become
stray by that. The relation is closed under doing one thing after another (`NoStrays.trans`), so
that it can be shown for each part by itself, and where nothing was stray before, nothing is
(`NoStrays.all_awaited`).
-/

namespace Playtest.Vision.Coordinator

open Playtest.Scene

variable {c c' c'' : Coordinator} {key k : Key} {query : VisionQuery} {snapshot : Snapshot}
  {start : String}

/-- A request for the key is **outstanding**. -/
def Expects (c : Coordinator) (key : Key) : Prop := ∃ index, (key, index) ∈ c.outstanding

/-- Sending a request replaces what is outstanding under its key and leaves the rest as it is. -/
theorem mem_outstanding_submit {e : Key × UInt64}
    (h : e ∈ (c.submit key query snapshot).1.outstanding) : e.1 = key ∨ e ∈ c.outstanding := by
  rcases submit_cases c key query snapshot with ⟨service, screenshot, hs, hp⟩ | heq
  · rw [submit_eq hs hp] at h
    rcases List.mem_cons.mp h with rfl | h
    · exact .inl rfl
    · exact .inr (List.mem_filter.mp h).1
  · rw [heq] at h
    exact .inr h

/-- Preparing keys makes requests outstanding for these keys only. -/
theorem mem_outstanding_prepareKeys {e : Key × UInt64} (keys : List (Key × VisionQuery)) :
    ∀ {c : Coordinator}, e ∈ (prepareKeys snapshot c keys).1.outstanding →
      (∃ query, (e.1, query) ∈ keys) ∨ e ∈ c.outstanding := by
  -- on the keys, each of which has its turn in front of the others
  induction keys with
  | nil => exact fun h => .inr h
  | cons entry rest ih =>
    obtain ⟨key, query⟩ := entry
    intro c h
    unfold prepareKeys at h
    split at h
    · -- the entry may have got a request, and the others come behind it
      rcases ih h with ⟨q, hq⟩ | h
      · exact .inl ⟨q, List.mem_cons_of_mem _ hq⟩
      · rcases mem_outstanding_submit h with rfl | h
        · exact .inl ⟨query, List.mem_cons_self⟩
        · exact .inr h
    · rcases ih h with ⟨q, hq⟩ | h
      · exact .inl ⟨q, List.mem_cons_of_mem _ hq⟩
      · exact .inr h

/-- What is wanted is the vision criteria of the list, under their keys. -/
theorem mem_wanted_iff {parent : Key} {cs : List Criteria} :
    (key, query) ∈ wanted parent cs ↔
    ∃ criteria, (key, criteria) ∈ Criteria.withKeys parent cs ∧ query? criteria = some query := by
  unfold wanted
  rw [List.mem_filterMap]
  constructor
  · rintro ⟨⟨key', criteria⟩, hmem, heq⟩
    obtain ⟨q, hq, hpair⟩ := Option.map_eq_some_iff.mp heq
    obtain ⟨rfl, rfl⟩ := Prod.mk.inj hpair
    exact ⟨criteria, hmem, hq⟩
  · rintro ⟨criteria, hmem, hq⟩
    exact ⟨(key, criteria), hmem, Option.map_eq_some_iff.mpr ⟨query, hq, rfl⟩⟩

/-- **Requests are only sent for vision criteria.** -/
theorem expects_prepare {parent : Key} {cs : List Criteria}
    (h : (c.prepare parent cs snapshot).1.Expects k) :
    (∃ criteria, (k, criteria) ∈ Criteria.withKeys parent cs ∧ (query? criteria).isSome) ∨
      c.Expects k := by
  obtain ⟨index, hmem⟩ := h
  rcases mem_outstanding_prepareKeys (wanted parent cs) hmem with ⟨query, hquery⟩ | hmem
  · obtain ⟨criteria, hkey, hq⟩ := mem_wanted_iff.mp hquery
    exact .inl ⟨criteria, hkey, Option.isSome_of_eq_some hq⟩
  · exact .inr ⟨index, hmem⟩

/-- Whether a key begins with another one is whether it lies below it. -/
theorem beginsWith_iff : beginsWith key start = true ↔ Key.Below start key :=
  List.isPrefixOf_iff_prefix

/-- **Nothing is outstanding below a key that was released.** -/
theorem expects_release (h : (c.release start).Expects k) : c.Expects k ∧ ¬ Key.Below start k := by
  obtain ⟨index, hmem⟩ := h
  obtain ⟨hmem, hstart⟩ := List.mem_filter.mp hmem
  refine ⟨⟨index, hmem⟩, fun hbelow => ?_⟩
  rw [beginsWith_iff.mpr hbelow] at hstart
  exact Bool.false_ne_true hstart

theorem not_expects_reset : ¬ c.reset.Expects k := fun ⟨_, hmem⟩ => List.not_mem_nil hmem

/-! ### Strays -/

/-- **No request has become stray**: whatever is outstanding now and not awaited was outstanding
before and not awaited then. -/
def NoStrays (before : Key → Prop) (c : Coordinator) (after : Key → Prop) (c' : Coordinator) :
    Prop :=
  ∀ key, c'.Expects key → ¬ after key → c.Expects key ∧ ¬ before key

variable {before middle after : Key → Prop}

/-- One thing after another leaves no strays, if neither of the two does. -/
theorem NoStrays.trans (h : NoStrays before c middle c') (h' : NoStrays middle c' after c'') :
    NoStrays before c after c'' := by
  intro key hout hnone
  obtain ⟨hout, hnone⟩ := h' key hout hnone
  exact h key hout hnone

/-- Nobody who has awaited a key gives it up, and nothing new is outstanding. -/
theorem NoStrays.of_imp (ho : c'.outstanding = c.outstanding) (h : ∀ key, before key → after key) :
    NoStrays before c after c' := by
  rintro key ⟨index, hmem⟩ hnone
  exact ⟨⟨index, ho ▸ hmem⟩, fun hb => hnone (h key hb)⟩

theorem NoStrays.refl (c : Coordinator) (before : Key → Prop) : NoStrays before c before c :=
  .of_imp rfl fun _ h => h

/-- Where nothing was stray, nothing is. -/
theorem NoStrays.all_awaited (h : NoStrays before c after c')
    (hb : ∀ key, c.Expects key → before key) : ∀ key, c'.Expects key → after key := by
  intro key hout
  by_contra hnone
  obtain ⟨hout, hbefore⟩ := h key hout hnone
  exact hbefore (hb key hout)

end Playtest.Vision.Coordinator
