import Mathlib.Data.List.Nodup
import Mathlib.Data.List.Perm.Basic

/-!
# Queues that drop what they saw

A queue takes a message unless it took one with the same id within a window of time, and delivers what it took in any order.
As long as every repetition comes within the window, no id is delivered twice.
-/

namespace CorpoPay.Data

structure DedupQueue (K M : Type) where
  clock : Nat
  /-- The ids that were taken and the times when they were. -/
  taken : List (K × Nat)
  pending : List M
  delivered : List M

namespace DedupQueue

variable {K M : Type}

def empty (clock : Nat) : DedupQueue K M := ⟨clock, [], [], []⟩

/-- All messages that the queue took. -/
def messages (q : DedupQueue K M) : List M := q.pending ++ q.delivered

def wait (q : DedupQueue K M) (duration : Nat) : DedupQueue K M := { q with clock := q.clock + duration }

section Operations

variable [DecidableEq K] [DecidableEq M] (window : Nat) (id : M → K)

/-- The id was taken within the window. -/
def isRecent (q : DedupQueue K M) (k : K) : Bool := q.taken.any fun seen => seen.1 = k ∧ q.clock < seen.2 + window

def take (q : DedupQueue K M) (m : M) : DedupQueue K M :=
  if q.isRecent window (id m) then q
  else { q with taken := q.taken ++ [(id m, q.clock)], pending := q.pending ++ [m] }

def deliver (q : DedupQueue K M) (m : M) : Option (DedupQueue K M) :=
  if m ∈ q.pending then some { q with pending := q.pending.erase m, delivered := q.delivered ++ [m] } else none

/-- If the id was taken before, that was within the window. -/
def InWindow (q : DedupQueue K M) (k : K) : Prop := ∀ seen ∈ q.taken, seen.1 = k → q.clock < seen.2 + window

instance (q : DedupQueue K M) (k : K) : Decidable (q.InWindow window k) := by
  unfold InWindow
  infer_instance

end Operations

/-! ## What a run keeps -/

/-- The ids that were taken are those of the messages. -/
def Known (id : M → K) (q : DedupQueue K M) : Prop := ∀ k, (∃ t, (k, t) ∈ q.taken) ↔ ∃ m ∈ q.messages, id m = k

/-- No two messages have one id. -/
def Distinct (id : M → K) (q : DedupQueue K M) : Prop := (q.messages.map id).Nodup

variable {window duration : Nat} {id : M → K} {q q' : DedupQueue K M} {m : M}

theorem known_empty (clock : Nat) : Known id (empty clock : DedupQueue K M) := fun k => by simp [empty, messages]

theorem distinct_empty (clock : Nat) : Distinct id (empty clock : DedupQueue K M) := List.nodup_nil

theorem Known.wait (h : q.Known id) : (q.wait duration).Known id := h

theorem Distinct.wait (h : q.Distinct id) : (q.wait duration).Distinct id := h

section Taking

variable [DecidableEq K]

theorem messages_take (q : DedupQueue K M) (m : M) (h : q.isRecent window (id m) = false) :
    (q.take window id m).messages.Perm (m :: q.messages) := by
  simp only [take, h, Bool.false_eq_true, if_false, messages, List.append_assoc, List.singleton_append]
  exact List.perm_middle

theorem take_of_recent (h : q.isRecent window (id m) = true) : q.take window id m = q := if_pos h

theorem mem_take_of_mem {m' : M} (h : m' ∈ q.messages) : m' ∈ (q.take window id m).messages := by
  cases hrecent : q.isRecent window (id m) with
  | true => rwa [take_of_recent hrecent]
  | false => exact (messages_take q m hrecent).mem_iff.mpr (List.mem_cons_of_mem m h)

theorem delivered_take (q : DedupQueue K M) (m : M) : (q.take window id m).delivered = q.delivered := by
  unfold take
  split <;> rfl

theorem Known.take (h : q.Known id) : (q.take window id m).Known id := by
  cases hrecent : q.isRecent window (id m) with
  | true => rwa [take_of_recent hrecent]
  | false =>
      intro k
      have hmem : (∃ m' ∈ (q.take window id m).messages, id m' = k) ↔ id m = k ∨ ∃ m' ∈ q.messages, id m' = k := by
        simp only [(messages_take q m hrecent).mem_iff, List.mem_cons, exists_eq_or_imp]
      have htaken : (q.take window id m).taken = q.taken ++ [(id m, q.clock)] := by
        simp only [DedupQueue.take, hrecent, Bool.false_eq_true, if_false]
      rw [hmem, ← h k, htaken]
      simp only [List.mem_append, List.mem_singleton, Prod.mk.injEq, exists_or]
      grind

/-- What is dropped has the id of a message. -/
theorem exists_of_take (h : q.Known id) (window : Nat) (m : M) : ∃ m' ∈ (q.take window id m).messages, id m' = id m := by
  cases hrecent : q.isRecent window (id m) with
  | true =>
      obtain ⟨⟨k, t⟩, hseen, heq⟩ := List.any_eq_true.mp hrecent
      obtain ⟨rfl, -⟩ := of_decide_eq_true heq
      rw [take_of_recent hrecent]
      exact (h _).mp ⟨t, hseen⟩
  | false => exact ⟨m, (messages_take q m hrecent).mem_iff.mpr List.mem_cons_self, rfl⟩

/-- A message that comes within the window of its id is dropped. -/
theorem Distinct.take (h : q.Distinct id) (hknown : q.Known id) (hin : q.InWindow window (id m)) :
    (q.take window id m).Distinct id := by
  cases hrecent : q.isRecent window (id m) with
  | true => rwa [take_of_recent hrecent]
  | false =>
      have hfresh : id m ∉ q.messages.map id := by
        rintro hmem
        obtain ⟨t, ht⟩ := (hknown (id m)).mpr (List.mem_map.mp hmem)
        have hseen : q.isRecent window (id m) = true :=
          List.any_eq_true.mpr ⟨(id m, t), ht, decide_eq_true ⟨rfl, hin _ ht rfl⟩⟩
        exact absurd (hseen.symm.trans hrecent) (by decide)
      exact ((messages_take q m hrecent).map id).nodup_iff.mpr (List.nodup_cons.mpr ⟨hfresh, h⟩)

end Taking

section Delivering

variable [DecidableEq M]

theorem messages_deliver (h : q.deliver m = some q') : q'.messages.Perm q.messages := by
  unfold deliver at h
  split at h
  · rename_i hmem
    cases h
    have hcons : (m :: (q.pending.erase m ++ q.delivered)).Perm (q.pending ++ q.delivered) :=
      (List.perm_cons_erase hmem).symm.append_right q.delivered
    refine List.Perm.trans ?_ hcons
    simp only [messages, ← List.append_assoc]
    exact List.perm_append_singleton m _
  · cases h

theorem mem_delivered_of_mem {m' : M} (h : q.deliver m = some q') (hm : m' ∈ q.delivered) : m' ∈ q'.delivered := by
  unfold deliver at h
  split at h
  · cases h
    exact List.mem_append_left _ hm
  · cases h

theorem taken_deliver (h : q.deliver m = some q') : q'.taken = q.taken := by
  unfold deliver at h
  split at h
  · cases h; rfl
  · cases h

theorem Known.deliver (h : q.Known id) (hdeliver : q.deliver m = some q') : q'.Known id := by
  intro k
  simp only [taken_deliver hdeliver, (messages_deliver hdeliver).mem_iff]
  exact h k

theorem Distinct.deliver (h : q.Distinct id) (hdeliver : q.deliver m = some q') : q'.Distinct id :=
  ((messages_deliver hdeliver).map id).nodup_iff.mpr h

end Delivering

/-- No id is delivered twice. -/
theorem Distinct.delivered (h : q.Distinct id) : (q.delivered.map id).Nodup := by
  rw [Distinct, messages, List.map_append] at h
  exact h.of_append_right

end DedupQueue

end CorpoPay.Data
