import Mathlib.Data.Finset.Card
import Mathlib.Logic.Function.Basic
import Playtest.Abort

/-!
# What a listener hears

Handles and listeners of one signal come and go in any order. The main result,
`looks_tell_of_aborts`, is that a listener that looks hears an abort just if one was sent since it
began to listen, or every handle is gone, and that it hears one at every later look as well.

What carries signals is a broadcast channel that keeps one message. The theorem is about any
`Channel` that does what is documented of such a channel (`Channel.Documented`): how many messages a
receiver has yet to receive, and what it finds. The channel says nothing about handles that are
gone, about listeners, or about what was sent long ago, and `Channel.Followed` is the invariant that
says what the state of the channel and of the listeners has to do with that.

`Signal` is such a channel (`Wiring.documented`), and `Mirrored` says what its listeners have to do
with those of the channel, so that the same is true of `Listener.look` (`looked_iff`).
-/

namespace Playtest.Abort

/-- A reception tells of an abort if there is something to receive, or nobody left who could send
anything. -/
theorem Signal.isAbort_receive {s : Signal} {since : Nat} :
    (s.receive since).isAbort ↔ since < s.sent ∨ s.handles = 0 := by
  unfold receive
  split
  · -- there are two kinds of finding something, and two of finding nothing
    next h => exact ⟨fun _ => .inl (Nat.lt_of_succ_lt h), fun _ => rfl⟩
  split
  · next h => exact ⟨fun _ => .inl h, fun _ => rfl⟩
  next hsent =>
  split
  · next h => exact ⟨fun _ => .inr h, fun _ => rfl⟩
  · next h =>
      exact ⟨fun hf => absurd hf Bool.false_ne_true, fun ho => absurd ho (not_or.mpr ⟨hsent, h⟩)⟩

theorem Listener.hears_iff {l : Listener} {s : Signal} :
    l.hears s ↔ l.isAborted ∨ l.since < s.sent ∨ s.handles = 0 := by
  unfold hears
  rw [Bool.or_eq_true, Signal.isAbort_receive]

/-! ### Histories -/

/-- What can be **done** with the handles and the listeners of a signal. Both are numbered in the
order in which they are made, and there is one handle from the start. -/
inductive Deed where
  | clone (handle : Nat)
  | drop (handle : Nat)
  | abort (handle : Nat)
  | listen (handle : Nat)
  | leave (listener : Nat)
  | look (listener : Nat)
  deriving DecidableEq

/-- How many handles were made. -/
def handles : List Deed → Nat
  | [] => 1
  | .clone _ :: past => handles past + 1
  | _ :: past => handles past

/-- How many listeners were made. -/
def listeners : List Deed → Nat
  | [] => 0
  | .listen _ :: past => listeners past + 1
  | _ :: past => listeners past

/-- The handle is there. -/
def Held (past : List Deed) (h : Nat) : Prop := h < handles past ∧ .drop h ∉ past

/-- The listener is there. -/
def Listening (past : List Deed) (i : Nat) : Prop := i < listeners past ∧ .leave i ∉ past

/-- Nothing is done with what is not there. -/
def Allowed (past : List Deed) : Deed → Prop
  | .clone h | .drop h | .abort h | .listen h => Held past h
  | .leave i | .look i => Listening past i

/-- The **histories** that can come about. The latest deed is the first in the list. -/
inductive Possible : List Deed → Prop
  | nil : Possible []
  | cons {d : Deed} {past : List Deed} (h : Possible past) (hd : Allowed past d) :
      Possible (d :: past)

instance (past : List Deed) (h : Nat) : Decidable (Held past h) :=
  inferInstanceAs (Decidable (_ ∧ _))

instance (past : List Deed) (i : Nat) : Decidable (Listening past i) :=
  inferInstanceAs (Decidable (_ ∧ _))

instance (past : List Deed) : (d : Deed) → Decidable (Allowed past d)
  | .clone h | .drop h | .abort h | .listen h => inferInstanceAs (Decidable (Held past h))
  | .leave i | .look i => inferInstanceAs (Decidable (Listening past i))

/-- Some handle has **sent an abort** since the listener began. -/
def AbortedSince (past : List Deed) (i : Nat) : Prop :=
  ∃ later h earlier, past = later ++ .abort h :: earlier ∧ i < listeners earlier

/-- Every handle is gone. -/
def Abandoned (past : List Deed) : Prop := ∀ h < handles past, .drop h ∈ past

instance (past : List Deed) : Decidable (Abandoned past) :=
  inferInstanceAs (Decidable (∀ h < handles past, Deed.drop h ∈ past))

section Histories

variable {d : Deed} {past : List Deed} {h i j : Nat}

/-- What is possible came about by something that was allowed. -/
theorem Possible.tail (hp : Possible (d :: past)) : Possible past ∧ Allowed past d := by
  cases hp with
  | cons h hd => exact ⟨h, hd⟩

instance decidablePossible : (past : List Deed) → Decidable (Possible past)
  | [] => .isTrue .nil
  | _ :: past =>
      have := decidablePossible past
      decidable_of_iff (_ ∧ _) ⟨fun h => .cons h.1 h.2, Possible.tail⟩

/-- Handles are numbered once and for all: dropping one does not free its number. -/
theorem handles_le_cons (d : Deed) (past : List Deed) : handles past ≤ handles (d :: past) := by
  cases d <;> simp [handles]

/-- Listeners are numbered once and for all as well. -/
theorem listeners_le_cons (d : Deed) (past : List Deed) :
    listeners past ≤ listeners (d :: past) := by
  cases d <;> simp [listeners]

/-- A handle that is dropped was there. -/
theorem Possible.lt_handles (hp : Possible past) (hd : .drop h ∈ past) : h < handles past := by
  induction hp with
  | nil => cases hd
  | @cons d past _ hallowed ih =>
    refine Nat.lt_of_lt_of_le ?_ (handles_le_cons d past)
    -- it is what was done last, or it was done before
    rcases List.mem_cons.mp hd with rfl | hd
    · exact hallowed.1
    · exact ih hd

/-- A listener that leaves was there. -/
theorem Possible.lt_listeners (hp : Possible past) (hd : .leave i ∈ past) : i < listeners past := by
  induction hp with
  | nil => cases hd
  | @cons d past _ hallowed ih =>
    refine Nat.lt_of_lt_of_le ?_ (listeners_le_cons d past)
    rcases List.mem_cons.mp hd with rfl | hd
    · exact hallowed.1
    · exact ih hd

/-- The number of the next listener is not in use. -/
theorem not_listening_listeners : ¬ Listening past (listeners past) := fun h => Nat.lt_irrefl _ h.1

/-- Whoever listens after somebody has begun to did so before, or is the new one. -/
theorem listening_listen_iff (hp : Possible past) :
    Listening (.listen h :: past) i ↔ Listening past i ∨ i = listeners past := by
  -- the new number is fresh, so that nobody can have left under it
  have hnew : .leave (listeners past) ∉ past := fun hd => Nat.lt_irrefl _ (hp.lt_listeners hd)
  unfold Listening
  change i < listeners past + 1 ∧ _ ↔ _
  constructor
  · rintro ⟨hlt, hleave⟩
    rcases Nat.lt_succ_iff_lt_or_eq.mp hlt with hlt | rfl
    · exact .inl ⟨hlt, fun hd => hleave (List.mem_cons_of_mem _ hd)⟩
    · exact .inr rfl
  · rintro (⟨hlt, hleave⟩ | rfl)
    · exact ⟨Nat.lt_succ_of_lt hlt, by simpa using hleave⟩
    · exact ⟨Nat.lt_succ_self _, by simpa using hnew⟩

/-- Whoever leaves is the only one who stops listening. -/
theorem listening_leave_iff : Listening (.leave j :: past) i ↔ Listening past i ∧ i ≠ j := by
  unfold Listening
  rw [List.mem_cons, not_or, Deed.leave.injEq]
  exact ⟨fun ⟨hlt, hne, hleave⟩ => ⟨⟨hlt, hleave⟩, hne⟩, fun ⟨⟨hlt, hleave⟩, hne⟩ =>
    ⟨hlt, hne, hleave⟩⟩

/-- Nobody comes and nobody goes, unless by what is done for it. -/
theorem listening_cons_of_ne (hlisten : ∀ h, d ≠ .listen h) (hleave : ∀ j, d ≠ .leave j) :
    Listening (d :: past) i ↔ Listening past i := by
  unfold Listening
  rw [List.mem_cons, or_iff_right (Ne.symm (hleave i))]
  cases d with
  | listen h => exact absurd rfl (hlisten h)
  | clone | drop | abort | leave | look => rfl

/-- In the beginning nothing was sent. -/
theorem not_abortedSince_nil : ¬ AbortedSince [] i := by
  rintro ⟨later, h, earlier, heq, -⟩
  cases later <;> cases heq

/-- An abort that a listener can have heard was sent just now, to all who were there, or earlier. -/
theorem abortedSince_cons_iff :
    AbortedSince (d :: past) i ↔ (∃ h, d = .abort h) ∧ i < listeners past ∨
      AbortedSince past i := by
  constructor
  · -- the list in front of the abort is empty, or it begins with the last deed
    rintro ⟨_ | ⟨d', later⟩, h, earlier, heq, hi⟩
    · cases heq
      exact .inl ⟨⟨h, rfl⟩, hi⟩
    · cases heq
      exact .inr ⟨later, h, earlier, rfl, hi⟩
  · rintro (⟨⟨h, rfl⟩, hi⟩ | ⟨later, h, earlier, rfl, hi⟩)
    · exact ⟨[], h, past, rfl, hi⟩
    · exact ⟨d :: later, h, earlier, rfl, hi⟩

/-- Only listeners that were made can have been sent an abort. -/
theorem AbortedSince.lt_listeners (ha : AbortedSince past i) : i < listeners past := by
  induction past with
  | nil => exact absurd ha not_abortedSince_nil
  | cons d past ih =>
    refine Nat.lt_of_lt_of_le ?_ (listeners_le_cons d past)
    rcases abortedSince_cons_iff.mp ha with ⟨-, hi⟩ | ha
    · exact hi
    · exact ih ha

/-- The handles that are there. -/
def held (past : List Deed) : Finset Nat :=
  (Finset.range (handles past)).filter fun h => .drop h ∉ past

theorem mem_held : h ∈ held past ↔ Held past h := by
  simp [held, Held]

/-- No handle is there just if every one was dropped. -/
theorem held_eq_empty_iff : held past = ∅ ↔ Abandoned past := by
  rw [Finset.eq_empty_iff_forall_notMem]
  refine forall_congr' fun h => ?_
  rw [mem_held]
  simp [Held]

/-- Cloning adds the next number to the handles. -/
theorem held_clone (hp : Possible past) :
    held (.clone h :: past) = insert (handles past) (held past) := by
  -- a number that is not in use was never dropped
  have hnew : .drop (handles past) ∉ past := fun hd => Nat.lt_irrefl _ (hp.lt_handles hd)
  ext k
  simp only [Finset.mem_insert, mem_held, Held, handles, List.mem_cons, reduceCtorEq, false_or,
    Nat.lt_succ_iff_lt_or_eq]
  constructor
  · rintro ⟨hlt | rfl, hd⟩
    · exact .inr ⟨hlt, hd⟩
    · exact .inl rfl
  · rintro (rfl | ⟨hlt, hd⟩)
    · exact ⟨.inr rfl, hnew⟩
    · exact ⟨.inl hlt, hd⟩

theorem held_drop : held (.drop h :: past) = (held past).erase h := by
  ext k
  simp only [Finset.mem_erase, mem_held, Held, handles, List.mem_cons, not_or, Deed.drop.injEq]
  tauto

/-- Nothing but cloning and dropping changes which handles there are. -/
theorem held_cons_of_ne (hclone : ∀ h, d ≠ .clone h) (hdrop : ∀ h, d ≠ .drop h) :
    held (d :: past) = held past := by
  ext k
  rw [mem_held, mem_held]
  unfold Held
  rw [List.mem_cons, or_iff_right (Ne.symm (hdrop k))]
  cases d with
  | clone h => exact absurd rfl (hclone h)
  | drop | abort | listen | leave | look => rfl

end Histories

/-! ### Channels -/

/-- A **broadcast channel** that keeps one message. Its receivers go by the numbers of their
listeners. -/
structure Channel (σ : Type) where
  /-- A channel with one sender. -/
  opened : σ
  clone : σ → σ
  drop : σ → σ
  send : σ → σ
  subscribe : Nat → σ → σ
  unsubscribe : Nat → σ → σ
  receive : Nat → σ → Reception × σ
  /-- How many senders there are. -/
  senders : σ → Nat
  /-- Which receivers there are. -/
  IsSubscribed : σ → Nat → Prop
  /-- How many messages a receiver has yet to receive. -/
  unread : σ → Nat → Nat

namespace Channel

variable {σ : Type} {ch : Channel σ}

/-- Nothing has changed for a receiver. -/
structure Unmoved (ch : Channel σ) (s s' : σ) (i : Nat) : Prop where
  isSubscribed : ch.IsSubscribed s' i ↔ ch.IsSubscribed s i
  unread : ch.unread s' i = ch.unread s i

/-- What is **documented** of a channel. A receiver sees the messages that were sent after it
subscribed. What it finds is a message or that it lags behind if there is one that it has not
received, otherwise that the channel is closed if there is no sender, and nothing otherwise. -/
structure Documented (ch : Channel σ) : Prop where
  opened : ch.senders ch.opened = 1 ∧ ∀ i, ¬ ch.IsSubscribed ch.opened i
  clone (s : σ) : ch.senders (ch.clone s) = ch.senders s + 1 ∧ ∀ i, ch.Unmoved s (ch.clone s) i
  drop (s : σ) : ch.senders (ch.drop s) = ch.senders s - 1 ∧ ∀ i, ch.Unmoved s (ch.drop s) i
  send (s : σ) : ch.senders (ch.send s) = ch.senders s ∧
    ∀ i, (ch.IsSubscribed (ch.send s) i ↔ ch.IsSubscribed s i) ∧
      (ch.IsSubscribed s i → ch.unread (ch.send s) i ≠ 0)
  subscribe (s : σ) (i : Nat) (h : ¬ ch.IsSubscribed s i) :
    ch.senders (ch.subscribe i s) = ch.senders s ∧
      (∀ j, j ≠ i → ch.Unmoved s (ch.subscribe i s) j) ∧
      ch.IsSubscribed (ch.subscribe i s) i ∧ ch.unread (ch.subscribe i s) i = 0
  unsubscribe (s : σ) (i : Nat) (h : ch.IsSubscribed s i) :
    ch.senders (ch.unsubscribe i s) = ch.senders s ∧
      (∀ j, j ≠ i → ch.Unmoved s (ch.unsubscribe i s) j) ∧
      ¬ ch.IsSubscribed (ch.unsubscribe i s) i
  receive (s : σ) (i : Nat) (h : ch.IsSubscribed s i) :
    ch.senders (ch.receive i s).2 = ch.senders s ∧
      (∀ j, j ≠ i → ch.Unmoved s (ch.receive i s).2 j) ∧
      ch.IsSubscribed (ch.receive i s).2 i ∧ ch.unread (ch.receive i s).2 i ≤ ch.unread s i
  found_message (s : σ) (i : Nat) (h : ch.IsSubscribed s i) (hu : ch.unread s i ≠ 0) :
    (ch.receive i s).1 = .message ∨ (ch.receive i s).1 = .lagged
  found_closed (s : σ) (i : Nat) (h : ch.IsSubscribed s i) (hu : ch.unread s i = 0)
    (hs : ch.senders s = 0) :
    (ch.receive i s).1 = .closed
  found_empty (s : σ) (i : Nat) (h : ch.IsSubscribed s i) (hu : ch.unread s i = 0)
    (hs : ch.senders s ≠ 0) :
    (ch.receive i s).1 = .empty

/-- The channel with all its listeners: which of them know of an abort. -/
structure Company (σ : Type) where
  channel : σ
  isAborted : Nat → Bool

/-- **What is done to the channel**, and what the listeners come to know. A listener that knows of
an abort does not look into the channel any more. -/
def after (ch : Channel σ) : List Deed → Company σ
  | [] => ⟨ch.opened, fun _ => false⟩
  | d :: past =>
      let w := ch.after past
      match d with
      | .clone _ => { w with channel := ch.clone w.channel }
      | .drop _ => { w with channel := ch.drop w.channel }
      | .abort _ => { w with channel := ch.send w.channel }
      | .listen _ =>
          ⟨ch.subscribe (listeners past) w.channel,
            Function.update w.isAborted (listeners past) false⟩
      | .leave i => { w with channel := ch.unsubscribe i w.channel }
      | .look i =>
          if w.isAborted i then w
          else
            let (found, s) := ch.receive i w.channel
            ⟨s, Function.update w.isAborted i found.isAbort⟩

/-- What a listener **hears** that looks now. -/
def heard (ch : Channel σ) (past : List Deed) (i : Nat) : Bool :=
  (ch.after (.look i :: past)).isAborted i

section Looks

variable {past : List Deed} {i : Nat}

/-- A listener that knows of an abort leaves the channel alone. -/
theorem after_look_of_aborted (ha : (ch.after past).isAborted i) :
    ch.after (.look i :: past) = ch.after past :=
  if_pos ha

/-- A listener that knows of none looks into the channel, and remembers what it finds. -/
theorem after_look (ha : (ch.after past).isAborted i = false) :
    ch.after (.look i :: past) = ⟨(ch.receive i (ch.after past).channel).2,
      Function.update (ch.after past).isAborted i
        (ch.receive i (ch.after past).channel).1.isAbort⟩ :=
  if_neg (by rw [ha]; exact Bool.false_ne_true)

end Looks

/-- **The invariant**: the channel and the listeners are as what was done says. -/
structure Followed (ch : Channel σ) (past : List Deed) (s : σ) (knows : Nat → Bool) : Prop where
  senders : ch.senders s = (held past).card
  isSubscribed : ∀ i, ch.IsSubscribed s i ↔ Listening past i
  unread : ∀ i, Listening past i → knows i = false → (ch.unread s i ≠ 0 ↔ AbortedSince past i)
  isAborted : ∀ i, knows i → AbortedSince past i ∨ Abandoned past

section Steps

variable {d : Deed} {past : List Deed} {s s' : σ} {knows : Nat → Bool} {i j h : Nat}

/-- Counting senders tells whether all handles are gone. -/
theorem Followed.senders_eq_zero_iff (hw : ch.Followed past s knows) :
    ch.senders s = 0 ↔ Abandoned past := by
  rw [hw.senders, Finset.card_eq_zero, held_eq_empty_iff]

/-- What a listener finds that does not know of an abort. -/
theorem Followed.isAbort_receive (hch : ch.Documented) (hw : ch.Followed past s knows)
    (hi : Listening past i) (ha : knows i = false) :
    (ch.receive i s).1.isAbort ↔ AbortedSince past i ∨ Abandoned past := by
  have hs := (hw.isSubscribed i).mpr hi
  rw [← hw.unread i hi ha, ← hw.senders_eq_zero_iff]
  -- unread messages come first; without any, it matters whether somebody could still send
  by_cases hu : ch.unread s i = 0
  · by_cases hsenders : ch.senders s = 0
    · simp [hch.found_closed _ _ hs hu hsenders, hsenders, Reception.isAbort]
    · simp [hch.found_empty _ _ hs hu hsenders, hu, hsenders, Reception.isAbort]
  · rcases hch.found_message _ _ hs hu with hf | hf <;> simp [hf, hu, Reception.isAbort]

/-- Nothing can be done any more to have an abort undone. -/
theorem aborted_cons (hp : Possible (d :: past)) (ha : AbortedSince past i ∨ Abandoned past) :
    AbortedSince (d :: past) i ∨ Abandoned (d :: past) := by
  refine ha.imp (fun ha => abortedSince_cons_iff.mpr (.inr ha)) fun ha h hh => ?_
  -- without handles there is nobody to make one
  have hhandles : handles (d :: past) = handles past := by
    cases d with
    | clone k => exact absurd (ha k hp.tail.2.1) hp.tail.2.2
    | drop | abort | listen | leave | look => rfl
  exact List.mem_cons_of_mem _ (ha h (hhandles ▸ hh))

/-- What is no abort sends none to anybody. -/
theorem abortedSince_cons_of_ne (hd : ∀ h, d ≠ .abort h) :
    AbortedSince (d :: past) i ↔ AbortedSince past i := by
  rw [abortedSince_cons_iff]
  exact or_iff_right fun ⟨⟨h, heq⟩, _⟩ => hd h heq

/-- A deed that sends nothing and makes no listener, and after which whoever listens has as much to
receive as before. -/
theorem Followed.calm (hw : ch.Followed past s knows) (hp : Possible (d :: past))
    (hd : ∀ h, d ≠ .abort h) (hsenders : ch.senders s' = (held (d :: past)).card)
    (hsubscribed : ∀ i, ch.IsSubscribed s' i ↔ Listening (d :: past) i)
    (hunread : ∀ i, Listening (d :: past) i → Listening past i ∧ ch.unread s' i = ch.unread s i) :
    ch.Followed (d :: past) s' knows where
  senders := hsenders
  isSubscribed := hsubscribed
  unread i hi ha := by
    obtain ⟨hpast, heq⟩ := hunread i hi
    -- by the old invariant, as neither side of it has changed
    rw [abortedSince_cons_of_ne hd, ← hw.unread i hpast ha]
    exact not_congr (by rw [heq])
  isAborted i ha := aborted_cons hp (hw.isAborted i ha)

/-- A new handle is a new sender, and no receiver is concerned. -/
theorem Followed.clone (hch : ch.Documented) (hw : ch.Followed past s knows)
    (hp : Possible (.clone h :: past)) :
    ch.Followed (.clone h :: past) (ch.clone s) knows := by
  obtain ⟨hsenders, hmoved⟩ := hch.clone s
  have hnew : handles past ∉ held past := fun hm => Nat.lt_irrefl _ (mem_held.mp hm).1
  have hlistening : ∀ i, Listening (.clone h :: past) i ↔ Listening past i :=
    fun _ => listening_cons_of_ne (fun _ => Deed.noConfusion) fun _ => Deed.noConfusion
  refine hw.calm hp (fun _ => Deed.noConfusion) ?_ (fun i => ?_) fun i hi =>
    ⟨(hlistening i).mp hi, (hmoved i).unread⟩
  · rw [hsenders, hw.senders, held_clone hp.tail.1, Finset.card_insert_of_notMem hnew]
  · rw [(hmoved i).isSubscribed, hw.isSubscribed, hlistening]

/-- A handle that is dropped is a sender less, and no receiver is concerned. -/
theorem Followed.drop (hch : ch.Documented) (hw : ch.Followed past s knows)
    (hp : Possible (.drop h :: past)) :
    ch.Followed (.drop h :: past) (ch.drop s) knows := by
  obtain ⟨hsenders, hmoved⟩ := hch.drop s
  have hlistening : ∀ i, Listening (.drop h :: past) i ↔ Listening past i :=
    fun _ => listening_cons_of_ne (fun _ => Deed.noConfusion) fun _ => Deed.noConfusion
  refine hw.calm hp (fun _ => Deed.noConfusion) ?_ (fun i => ?_) fun i hi =>
    ⟨(hlistening i).mp hi, (hmoved i).unread⟩
  · rw [hsenders, hw.senders, held_drop, Finset.card_erase_of_mem (mem_held.mpr hp.tail.2)]
  · rw [(hmoved i).isSubscribed, hw.isSubscribed, hlistening]

/-- Who leaves is subscribed no more, and all others stay as they are. -/
theorem Followed.leave (hch : ch.Documented) (hw : ch.Followed past s knows)
    (hp : Possible (.leave i :: past)) :
    ch.Followed (.leave i :: past) (ch.unsubscribe i s) knows := by
  obtain ⟨hsenders, hmoved, hgone⟩ := hch.unsubscribe s i ((hw.isSubscribed i).mpr hp.tail.2)
  refine hw.calm hp (fun _ => Deed.noConfusion) ?_ (fun j => ?_) fun j hj => ?_
  · rw [hsenders, hw.senders, held_cons_of_ne (fun _ => Deed.noConfusion) fun _ => Deed.noConfusion]
  · -- the one who leaves is gone from both sides of the equivalence
    rw [listening_leave_iff]
    by_cases hji : j = i
    · subst hji
      exact ⟨fun hs => absurd hs hgone, fun ⟨_, hne⟩ => absurd rfl hne⟩
    · rw [(hmoved j hji).isSubscribed, hw.isSubscribed, and_iff_left hji]
  · obtain ⟨hpast, hne⟩ := listening_leave_iff.mp hj
    exact ⟨hpast, (hmoved j hne).unread⟩

/-- An abort reaches everyone who listens. -/
theorem Followed.abort (hch : ch.Documented) (hw : ch.Followed past s knows)
    (hp : Possible (.abort h :: past)) :
    ch.Followed (.abort h :: past) (ch.send s) knows := by
  obtain ⟨hsenders, hsent⟩ := hch.send s
  have hlistening : ∀ i, Listening (.abort h :: past) i ↔ Listening past i :=
    fun _ => listening_cons_of_ne (fun _ => Deed.noConfusion) fun _ => Deed.noConfusion
  refine ⟨?_, fun i => ?_, fun i hi _ => ?_, fun i ha => aborted_cons hp (hw.isAborted i ha)⟩
  · rw [hsenders, hw.senders, held_cons_of_ne (fun _ => Deed.noConfusion) fun _ => Deed.noConfusion]
  · rw [(hsent i).1, hw.isSubscribed, hlistening]
  · -- the message is unread by everybody who is subscribed when it is sent
    have hpast := (hlistening i).mp hi
    have hreached : AbortedSince (.abort h :: past) i :=
      abortedSince_cons_iff.mpr (.inl ⟨⟨h, rfl⟩, hpast.1⟩)
    exact iff_of_true ((hsent i).2 ((hw.isSubscribed i).mpr hpast)) hreached

/-- A new listener has heard nothing. -/
theorem Followed.listen (hch : ch.Documented) (hw : ch.Followed past s knows)
    (hp : Possible (.listen h :: past)) :
    ch.Followed (.listen h :: past) (ch.subscribe (listeners past) s)
      (Function.update knows (listeners past) false) := by
  -- its number is not in use, so the channel does not know it yet
  have hnew : ¬ ch.IsSubscribed s (listeners past) :=
    fun hs => not_listening_listeners ((hw.isSubscribed _).mp hs)
  obtain ⟨hsenders, hmoved, hthere, hnone⟩ := hch.subscribe s (listeners past) hnew
  have hsince : ∀ i, AbortedSince (.listen h :: past) i ↔ AbortedSince past i :=
    fun i => abortedSince_cons_of_ne fun _ => Deed.noConfusion
  refine ⟨?_, fun i => ?_, fun i hi ha => ?_, fun i ha => ?_⟩
  · rw [hsenders, hw.senders, held_cons_of_ne (fun _ => Deed.noConfusion) fun _ => Deed.noConfusion]
  · -- the new one is there now, the others are as they were
    rw [listening_listen_iff hp.tail.1]
    by_cases hi : i = listeners past
    · exact iff_of_true (hi ▸ hthere) (.inr hi)
    · rw [(hmoved i hi).isSubscribed, hw.isSubscribed, or_iff_left hi]
  · -- the new one has nothing unread, and nothing was sent since it came
    rw [hsince]
    by_cases hin : i = listeners past
    · subst hin
      exact iff_of_false (fun hu => hu hnone) fun hs => Nat.lt_irrefl _ hs.lt_listeners
    · have hpast : Listening past i := ((listening_listen_iff hp.tail.1).mp hi).resolve_right hin
      rw [Function.update_of_ne hin] at ha
      rw [(hmoved i hin).unread]
      exact hw.unread i hpast ha
  · by_cases hin : i = listeners past
    · subst hin
      exact absurd ha (by rw [Function.update_self]; exact Bool.false_ne_true)
    · rw [Function.update_of_ne hin] at ha
      exact aborted_cons hp (hw.isAborted i ha)

/-- A listener that does not know of an abort finds out. -/
theorem Followed.look (hch : ch.Documented) (hw : ch.Followed past s knows)
    (hp : Possible (.look i :: past)) (ha : knows i = false) :
    ch.Followed (.look i :: past) (ch.receive i s).2
      (Function.update knows i (ch.receive i s).1.isAbort) := by
  have hi : Listening past i := hp.tail.2
  obtain ⟨hsenders, hmoved, hthere, hread⟩ := hch.receive s i ((hw.isSubscribed i).mpr hi)
  have hfound := hw.isAbort_receive hch hi ha
  have hlistening : ∀ j, Listening (.look i :: past) j ↔ Listening past j :=
    fun _ => listening_cons_of_ne (fun _ => Deed.noConfusion) fun _ => Deed.noConfusion
  have hsince : ∀ j, AbortedSince (.look i :: past) j ↔ AbortedSince past j :=
    fun j => abortedSince_cons_of_ne fun _ => Deed.noConfusion
  refine ⟨?_, fun j => ?_, fun j hj haj => ?_, fun j haj => ?_⟩
  · rw [hsenders, hw.senders, held_cons_of_ne (fun _ => Deed.noConfusion) fun _ => Deed.noConfusion]
  · -- looking changes neither who is there nor how many senders there are
    rw [hlistening]
    by_cases hji : j = i
    · exact iff_of_true (hji ▸ hthere) (hji ▸ hi)
    · rw [(hmoved j hji).isSubscribed, hw.isSubscribed]
  · rw [hsince]
    by_cases hji : j = i
    · subst hji
      rw [Function.update_self] at haj
      -- it has found nothing, so there was nothing, and there is not more now
      have hnone : ¬ AbortedSince past j := fun hs => by
        rw [hfound.mpr (.inl hs)] at haj
        cases haj
      have hzero : ch.unread s j = 0 := by
        by_contra hu
        exact hnone ((hw.unread j hi ha).mp hu)
      exact iff_of_false (fun hu => hu (Nat.le_zero.mp (hzero ▸ hread))) hnone
    · rw [Function.update_of_ne hji] at haj
      rw [(hmoved j hji).unread]
      exact hw.unread j ((hlistening j).mp hj) haj
  · -- who knows of an abort now has found it by this look, or knew before
    refine aborted_cons hp ?_
    by_cases hji : j = i
    · subst hji
      rw [Function.update_self] at haj
      exact hfound.mp haj
    · rw [Function.update_of_ne hji] at haj
      exact hw.isAborted j haj

end Steps

variable {past : List Deed} {i : Nat}

/-- The invariant holds whatever is done. -/
theorem Documented.followed (hch : ch.Documented) (hp : Possible past) :
    ch.Followed past (ch.after past).channel (ch.after past).isAborted := by
  induction hp with
  -- nobody listens in the beginning, and one handle is there
  | nil =>
    refine ⟨hch.opened.1, fun i => ?_, fun i hi => absurd hi.1 (Nat.not_lt_zero i),
      fun i ha => by cases ha⟩
    exact iff_of_false (hch.opened.2 i) fun hi => Nat.not_lt_zero i hi.1
  | @cons d past h hd ih =>
    have hp : Possible (d :: past) := .cons h hd
    cases d with
    | clone => exact ih.clone hch hp
    | drop => exact ih.drop hch hp
    | abort => exact ih.abort hch hp
    | listen => exact ih.listen hch hp
    | leave => exact ih.leave hch hp
    | look i =>
      -- whoever knows of an abort does not look, and nothing changes
      cases ha : (ch.after past).isAborted i with
      | true =>
        rw [after_look_of_aborted ha]
        have hheld : held (.look i :: past) = held past :=
          held_cons_of_ne (fun _ => Deed.noConfusion) fun _ => Deed.noConfusion
        have hlistening : ∀ j, Listening (.look i :: past) j ↔ Listening past j :=
          fun _ => listening_cons_of_ne (fun _ => Deed.noConfusion) fun _ => Deed.noConfusion
        exact ih.calm hp (fun _ => Deed.noConfusion) (hheld ▸ ih.senders)
          (fun j => (ih.isSubscribed j).trans (hlistening j).symm) fun j hj =>
            ⟨(hlistening j).mp hj, rfl⟩
      | false =>
        rw [after_look ha]
        exact ih.look hch hp ha

/-- What a look comes to. -/
theorem Documented.heard_iff (hch : ch.Documented) (hp : Possible (.look i :: past)) :
    ch.heard past i ↔ AbortedSince past i ∨ Abandoned past := by
  have hw := hch.followed hp.tail.1
  unfold heard
  -- it knows already, or finds out by looking
  cases ha : (ch.after past).isAborted i with
  | true =>
    rw [after_look_of_aborted ha]
    exact iff_of_true ha (hw.isAborted i ha)
  | false =>
    rw [after_look ha]
    dsimp only
    rw [Function.update_self]
    exact hw.isAbort_receive hch hp.tail.2 ha

/-- An abort is not undone by anything that is done later. -/
theorem aborted_append {later : List Deed} (hp : Possible (later ++ past))
    (ha : AbortedSince past i ∨ Abandoned past) :
    AbortedSince (later ++ past) i ∨ Abandoned (later ++ past) := by
  induction later with
  | nil => exact ha
  | cons d later ih => exact aborted_cons hp (ih hp.tail.1)

end Channel

/-! ### A signal as a channel -/

/-- A **signal with its listeners**: which of them are there, and how far each of them has read. -/
structure Wiring where
  signal : Signal
  there : Finset Nat
  since : Nat → Nat
  counted : signal.listeners = there.card
  /-- Nobody has read what was not sent. -/
  since_le : ∀ i, since i ≤ signal.sent

namespace Wiring

variable {w : Wiring} {i j : Nat}

/-- The signal is sent. -/
def abort (w : Wiring) : Wiring where
  signal := w.signal.abort.1
  there := w.there
  since := w.since
  counted := by
    rw [← w.counted]
    unfold Signal.abort
    split <;> rfl
  since_le i := by
    refine Nat.le_trans (w.since_le i) ?_
    unfold Signal.abort
    split
    · exact Nat.le_refl _
    · exact Nat.le_succ _

/-- A receiver comes. -/
def listen (w : Wiring) (i : Nat) (h : i ∉ w.there) : Wiring where
  signal := w.signal.listen.2
  there := insert i w.there
  since := Function.update w.since i w.signal.listen.1.since
  counted := by
    rw [Finset.card_insert_of_notMem h, ← w.counted]
    rfl
  since_le j := by
    by_cases hji : j = i
    · rw [hji, Function.update_self]
      exact Nat.le_refl _
    · rw [Function.update_of_ne hji]
      exact w.since_le j

/-- A receiver goes. -/
def leave (w : Wiring) (i : Nat) (h : i ∈ w.there) : Wiring where
  signal := w.signal.leave
  there := w.there.erase i
  since := w.since
  counted := by
    rw [Finset.card_erase_of_mem h, ← w.counted]
    rfl
  since_le := w.since_le

/-- How far a receiver has read that has found something. -/
def readTo (w : Wiring) (i : Nat) : Reception → Nat
  | .message => w.signal.sent
  | .lagged => w.signal.sent - 1
  | .closed | .empty => w.since i

/-- A receiver has found something. -/
def read (w : Wiring) (i : Nat) (found : Reception) : Wiring where
  signal := w.signal
  there := w.there
  since := Function.update w.since i (w.readTo i found)
  counted := w.counted
  since_le j := by
    by_cases hji : j = i
    · rw [hji, Function.update_self]
      cases found with
      | message => exact Nat.le_refl _
      | lagged => exact Nat.sub_le _ _
      | closed | empty => exact w.since_le i
    · rw [Function.update_of_ne hji]
      exact w.since_le j

/-- The channel that a signal is. -/
def channel : Channel Wiring where
  opened := ⟨.fresh, ∅, fun _ => 0, rfl, fun _ => Nat.le_refl _⟩
  clone w := { w with signal := w.signal.clone }
  drop w := { w with signal := w.signal.drop }
  send w := w.abort
  subscribe i w := if h : i ∈ w.there then w else w.listen i h
  unsubscribe i w := if h : i ∈ w.there then w.leave i h else w
  receive i w := (w.signal.receive (w.since i), w.read i (w.signal.receive (w.since i)))
  senders w := w.signal.handles
  IsSubscribed w i := i ∈ w.there
  unread w i := w.signal.sent - w.since i

/-- Whoever has something to receive finds a message, or that messages were lost. -/
theorem receive_of_unread (hu : channel.unread w i ≠ 0) :
    w.signal.receive (w.since i) = .message ∨ w.signal.receive (w.since i) = .lagged := by
  have hlt : w.since i < w.signal.sent := Nat.lt_of_sub_ne_zero hu
  unfold Signal.receive
  rw [if_pos hlt]
  split
  · exact .inr rfl
  · exact .inl rfl

/-- Whoever has nothing to receive finds out whether somebody could still send. -/
theorem receive_of_read (hu : channel.unread w i = 0) :
    w.signal.receive (w.since i) = if w.signal.handles = 0 then .closed else .empty := by
  have hle : w.signal.sent ≤ w.since i := Nat.le_of_sub_eq_zero hu
  unfold Signal.receive
  rw [if_neg (by omega), if_neg (by omega)]

/-- Whoever listens has an abort to receive that is sent now. -/
theorem unread_abort (hi : i ∈ w.there) : channel.unread w.abort i ≠ 0 := by
  have hlisteners : w.signal.listeners ≠ 0 := by
    rw [w.counted]
    exact Finset.card_ne_zero_of_mem hi
  have hsent : w.signal.abort.1.sent = w.signal.sent + 1 := by
    unfold Signal.abort
    rw [if_neg hlisteners]
  -- one more was sent than before, and nobody had read more than was sent
  change w.signal.abort.1.sent - w.since i ≠ 0
  have := w.since_le i
  omega

/-- Reading leaves less to read. -/
theorem since_le_readTo (w : Wiring) (i : Nat) :
    w.since i ≤ w.readTo i (w.signal.receive (w.since i)) := by
  have := w.since_le i
  unfold Signal.receive
  -- a message is read to the end, a lagging receiver to the one message that is kept
  split
  · next h =>
    change w.since i ≤ w.signal.sent - 1
    omega
  split
  · exact w.since_le i
  split <;> exact Nat.le_refl _

/-- **A signal is a channel as documented.** -/
theorem documented : channel.Documented where
  opened := ⟨rfl, fun i => Finset.notMem_empty i⟩
  clone _ := ⟨rfl, fun _ => ⟨Iff.rfl, rfl⟩⟩
  drop _ := ⟨rfl, fun _ => ⟨Iff.rfl, rfl⟩⟩
  send w := by
    refine ⟨?_, fun i => ⟨Iff.rfl, unread_abort⟩⟩
    change w.signal.abort.1.handles = w.signal.handles
    unfold Signal.abort
    split <;> rfl
  -- a receiver that comes has read everything that was sent so far
  subscribe w i h := by
    have heq : channel.subscribe i w = w.listen i h := dif_neg h
    rw [heq]
    refine ⟨rfl, fun j hj => ⟨?_, ?_⟩, Finset.mem_insert_self _ _, ?_⟩
    · exact Finset.mem_insert.trans (or_iff_right hj)
    · change w.signal.sent - Function.update w.since i w.signal.sent j = _
      rw [Function.update_of_ne hj]
      rfl
    · change w.signal.sent - Function.update w.since i w.signal.sent i = _
      rw [Function.update_self]
      exact Nat.sub_self _
  -- one that goes is erased from those who are there
  unsubscribe w i h := by
    have heq : channel.unsubscribe i w = w.leave i h := dif_pos h
    rw [heq]
    exact ⟨rfl, fun j hj => ⟨Finset.mem_erase.trans (and_iff_right hj), rfl⟩,
      Finset.notMem_erase _ _⟩
  receive w i h := by
    refine ⟨rfl, fun j hj => ⟨Iff.rfl, ?_⟩, h, ?_⟩
    · change w.signal.sent - Function.update w.since i (w.readTo i _) j = _
      rw [Function.update_of_ne hj]
      rfl
    · change w.signal.sent - Function.update w.since i (w.readTo i _) i ≤ w.signal.sent - w.since i
      rw [Function.update_self]
      exact Nat.sub_le_sub_left (w.since_le_readTo i) _
  found_message w i _ hu := receive_of_unread hu
  found_closed w i _ hu hs := (receive_of_read hu).trans (if_pos hs)
  found_empty w i _ hu hs := (receive_of_read hu).trans (if_neg hs)

end Wiring

/-! ### Listeners of a signal -/

/-- **A signal and its listeners** after what was done. -/
def running : List Deed → Signal × (Nat → Listener)
  | [] => (.fresh, fun _ => ⟨0, false⟩)
  | d :: past =>
      let (s, ls) := running past
      match d with
      | .clone _ => (s.clone, ls)
      | .drop _ => (s.drop, ls)
      | .abort _ => (s.abort.1, ls)
      | .listen _ => (s.listen.2, Function.update ls (listeners past) s.listen.1)
      | .leave _ => (s.leave, ls)
      | .look i => (s, Function.update ls i ((ls i).look s))

/-- The signal and its listeners are as the channel and what is known of it. How far a listener has
read is of no interest any more when it knows of an abort. -/
structure Mirrored (past : List Deed) (w : Channel.Company Wiring) : Prop where
  signal : w.channel.signal = (running past).1
  isAborted : ∀ i, w.isAborted i = ((running past).2 i).isAborted
  since : ∀ i, w.isAborted i = false → w.channel.since i = ((running past).2 i).since

section Running

variable {d : Deed} {past : List Deed} {i : Nat}

/-- A listener that begins is the receiver that subscribes, and has read as far. -/
theorem Mirrored.listen {h : Nat} (hm : Mirrored past (Wiring.channel.after past))
    (hp : Possible past) :
    Mirrored (.listen h :: past) (Wiring.channel.after (.listen h :: past)) := by
  -- the number is free in the channel, so that subscribing does something
  have hnew : listeners past ∉ (Wiring.channel.after past).channel.there :=
    fun hs => not_listening_listeners (((Wiring.documented.followed hp).isSubscribed _).mp hs)
  have hsubscribe : (Wiring.channel.after (.listen h :: past)).channel =
      (Wiring.channel.after past).channel.listen (listeners past) hnew := dif_neg hnew
  refine ⟨?_, fun i => ?_, fun i hi => ?_⟩
  · rw [hsubscribe]
    -- the new listener knows of nothing, the others know what they knew
    exact congrArg (fun s => s.listen.2) hm.signal
  · simp only [Channel.after, running, Function.update_apply]
    split
    · rfl
    · exact hm.isAborted i
  · simp only [Channel.after, Function.update_apply] at hi
    rw [hsubscribe]
    -- the new listener has read all that was sent, in the signal as in the channel
    simp only [running, Wiring.listen, Function.update_apply]
    split at hi
    · next hin =>
      rw [if_pos hin, if_pos hin, hm.signal]
    · next hin =>
      rw [if_neg hin, if_neg hin]
      exact hm.since i hi

/-- A listener that looks finds in the signal what its receiver finds in the channel. -/
theorem Mirrored.look (hm : Mirrored past (Wiring.channel.after past)) :
    Mirrored (.look i :: past) (Wiring.channel.after (.look i :: past)) := by
  cases ha : (Wiring.channel.after past).isAborted i with
  | true =>
    -- whoever knows of an abort learns nothing new
    have hlook : ((running past).2 i).look (running past).1 = (running past).2 i := by
      have haborted := (hm.isAborted i).symm.trans ha
      unfold Listener.look Listener.hears
      rw [haborted, Bool.true_or, ← haborted]
    have hrunning : running (.look i :: past) = running past := by
      simp only [running, hlook, Function.update_eq_self]
    rw [Channel.after_look_of_aborted ha]
    exact ⟨hrunning ▸ hm.signal, hrunning ▸ hm.isAborted, hrunning ▸ hm.since⟩
  | false =>
    have haborted := (hm.isAborted i).symm.trans ha
    -- it finds the same in the signal, as it has read as far
    have hfound : Wiring.channel.receive i (Wiring.channel.after past).channel =
        ((running past).1.receive ((running past).2 i).since,
          (Wiring.channel.after past).channel.read i
            ((running past).1.receive ((running past).2 i).since)) := by
      rw [← hm.signal, ← hm.since i ha]
      rfl
    rw [Channel.after_look ha, hfound]
    refine ⟨hm.signal, fun j => ?_, fun j hj => ?_⟩
    · simp only [running, Function.update_apply]
      split
      · change _ = (((running past).2 i).isAborted || _)
        rw [haborted, Bool.false_or]
      · exact hm.isAborted j
    · simp only [Function.update_apply] at hj
      simp only [running, Wiring.read, Function.update_apply]
      split at hj
      · next hji =>
        rw [if_pos hji, if_pos hji]
        -- nothing was found, and so nothing was read
        have hempty : (running past).1.receive ((running past).2 i).since = .empty := by
          cases hr : (running past).1.receive ((running past).2 i).since <;>
            rw [hr] at hj <;> first | rfl | cases hj
        rw [hempty]
        exact hm.since i ha
      · next hji =>
        rw [if_neg hji, if_neg hji]
        exact hm.since j hj

/-- **A signal goes the way of the channel that it is**, whatever is done. -/
theorem mirrored (hp : Possible past) : Mirrored past (Wiring.channel.after past) := by
  induction hp with
  | nil => exact ⟨rfl, fun _ => rfl, fun _ _ => rfl⟩
  | @cons d past hp hd ih =>
    cases d with
    | clone => exact ⟨congrArg Signal.clone ih.signal, ih.isAborted, ih.since⟩
    | drop => exact ⟨congrArg Signal.drop ih.signal, ih.isAborted, ih.since⟩
    | abort => exact ⟨congrArg (fun s => s.abort.1) ih.signal, ih.isAborted, ih.since⟩
    | listen => exact ih.listen hp
    -- the receiver is there, so that unsubscribing does something; how far others have read stays
    | leave i =>
      have hthere := ((Wiring.documented.followed hp).isSubscribed i).mpr hd
      have hleave : (Wiring.channel.after (.leave i :: past)).channel =
          (Wiring.channel.after past).channel.leave i hthere := dif_pos hthere
      refine ⟨?_, ih.isAborted, fun j hj => ?_⟩
      · rw [hleave]
        exact congrArg Signal.leave ih.signal
      · rw [hleave]
        exact ih.since j hj
    | look => exact ih.look

/-- What a listener of the signal **knows** that looks now. -/
def looked (past : List Deed) (i : Nat) : Bool :=
  (((running past).2 i).look (running past).1).isAborted

/-- What a listener of the signal knows is what its receiver hears. -/
theorem looked_iff (hp : Possible (.look i :: past)) :
    looked past i ↔ AbortedSince past i ∨ Abandoned past := by
  have hm := mirrored hp
  rw [← Wiring.documented.heard_iff hp, Channel.heard, hm.isAborted]
  change _ ↔ (Function.update (running past).2 i _ i).isAborted = true
  rw [Function.update_self]
  rfl

end Running

/-! ### What is heard -/

/-- Whoever looks is **told of aborts**: just if some handle has sent one since the listener began,
or every handle is gone. Who has been told of one is told of one at every later look, whatever is
done in between. -/
structure TellsOfAborts (hears : List Deed → Nat → Bool) (past : List Deed) (i : Nat) : Prop where
  now : hears past i ↔ AbortedSince past i ∨ Abandoned past
  forever : hears past i → ∀ later, Possible (.look i :: (later ++ .look i :: past)) →
    hears (later ++ .look i :: past) i

/-- To hear of exactly what was sent is to be told of aborts, since none is ever undone. -/
theorem tellsOfAborts_of_iff {hears : List Deed → Nat → Bool} {past : List Deed} {i : Nat}
    (h : ∀ {past}, Possible (.look i :: past) →
      (hears past i ↔ AbortedSince past i ∨ Abandoned past))
    (hp : Possible (.look i :: past)) : TellsOfAborts hears past i where
  now := h hp
  forever hh _ hlater :=
    (h hlater).mpr (Channel.aborted_append hlater.tail.1 (Channel.aborted_cons hp ((h hp).mp hh)))

/-- **A listener that looks hears an abort** just if some handle has sent one since the listener
began, or every handle is gone, and it hears one at every later look as well. So it is with any
channel that is as documented, and so it is with a signal. -/
theorem looks_tell_of_aborts {past : List Deed} {i : Nat} (hp : Possible (.look i :: past)) :
    (∀ {σ : Type} {ch : Channel σ}, ch.Documented → TellsOfAborts ch.heard past i) ∧
      TellsOfAborts looked past i :=
  ⟨fun hch => tellsOfAborts_of_iff hch.heard_iff hp, tellsOfAborts_of_iff looked_iff hp⟩

/-- A handle is cloned and given up by its owner, and the clone sends two aborts before another
listener comes. The latest deed is the first. -/
def relay : List Deed := [.listen 1, .abort 1, .abort 1, .look 0, .drop 0, .listen 0, .clone 0]

/-- The listener of the first handle hears of them, and does so for good. The other one hears of
nothing until the clone is gone as well. -/
theorem relay_is_heard :
    Wiring.channel.Documented ∧ Possible (.look 0 :: .drop 1 :: .look 0 :: relay) ∧
      Possible (.look 1 :: .drop 1 :: relay) ∧
        (Wiring.channel.heard relay 0 ∧ looked relay 0) ∧
        (Wiring.channel.heard (.drop 1 :: .look 0 :: relay) 0 ∧
          looked (.drop 1 :: .look 0 :: relay) 0) ∧
        (¬ Wiring.channel.heard relay 1 ∧ ¬ looked relay 1) ∧
          Wiring.channel.heard (.drop 1 :: relay) 1 ∧ looked (.drop 1 :: relay) 1 := by
  have hfirst : Possible (.look 0 :: .drop 1 :: .look 0 :: relay) := by decide
  have hsecond : Possible (.look 1 :: .drop 1 :: relay) := by decide
  have hbefore : Possible (.look 1 :: relay) := by decide
  obtain ⟨hchannel, hsignal⟩ := looks_tell_of_aborts hfirst.tail.1.tail.1
  obtain ⟨hotherChannel, hotherSignal⟩ := looks_tell_of_aborts hbefore
  obtain ⟨hgoneChannel, hgoneSignal⟩ := looks_tell_of_aborts hsecond
  -- the two aborts were sent after the first listener and before the second
  have hsent : AbortedSince relay 0 ∨ Abandoned relay := .inl ⟨[.listen 1], 1, _, rfl, by decide⟩
  have hgone : AbortedSince (.drop 1 :: relay) 1 ∨ Abandoned (.drop 1 :: relay) := .inr (by decide)
  have hnone : ¬ (AbortedSince relay 1 ∨ Abandoned relay) := by
    refine not_or.mpr ⟨?_, fun ha => absurd (ha 1 (by decide)) (by decide)⟩
    simp [relay, abortedSince_cons_iff, not_abortedSince_nil, listeners]
  have hheard := (hchannel Wiring.documented).now.mpr hsent
  have hlooked := hsignal.now.mpr hsent
  exact ⟨Wiring.documented, hfirst, hsecond, ⟨hheard, hlooked⟩,
    ⟨(hchannel Wiring.documented).forever hheard [.drop 1] hfirst,
      hsignal.forever hlooked [.drop 1] hfirst⟩,
    ⟨fun hh => hnone ((hotherChannel Wiring.documented).now.mp hh),
      fun hh => hnone (hotherSignal.now.mp hh)⟩,
    (hgoneChannel Wiring.documented).now.mpr hgone, hgoneSignal.now.mpr hgone⟩

end Playtest.Abort
