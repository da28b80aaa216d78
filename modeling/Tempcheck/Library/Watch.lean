/-!
# Channels that keep the latest value

A watch channel has one place.  `send` overwrites the value in it and counts a version,
so values that are sent before the receiver looks are lost but for the last.  The receiver
remembers the version it has seen.  `changed` is ready when there is a newer version, and
also when the sender is gone, which is an error unless there is a newer version.

`unread` is the number of versions the receiver has not seen.  Every notification reads at
least one of them, so a receiver is notified at most as often as values are sent.
-/

/-- A channel with its sender and its receiver. -/
structure Watch (α : Type) where
  value : α
  version : Nat
  seen : Nat
  /-- The sender is gone. -/
  closed : Bool
  seen_le : seen ≤ version

namespace Watch

variable {α : Type}

/-- The error of a channel whose sender is gone. -/
inductive RecvError where
  | closed
deriving DecidableEq

/-- A new channel, whose value counts as seen. -/
def channel (init : α) : Watch α where
  value := init
  version := 0
  seen := 0
  closed := false
  seen_le := Nat.le_refl 0

/-- A value is sent. -/
def send (c : Watch α) (value : α) : Watch α :=
  { c with value := value, version := c.version + 1, seen_le := Nat.le_succ_of_le c.seen_le }

/-- The sender is dropped. -/
def close (c : Watch α) : Watch α := { c with closed := true }

/-- The receiver has seen the value. -/
def markSeen (c : Watch α) : Watch α := { c with seen := c.version, seen_le := Nat.le_refl _ }

/-- The completion of `changed`, with the channel it leaves.  There is none while it
waits. -/
def changed (c : Watch α) : Option (Except RecvError (Watch α)) :=
  if c.seen ≠ c.version then some (.ok c.markSeen)
  else if c.closed then some (.error .closed)
  else none

/-- The versions the receiver has not seen. -/
def unread (c : Watch α) : Nat := c.version - c.seen

@[simp] theorem value_send (c : Watch α) (value : α) : (c.send value).value = value := rfl

@[simp] theorem value_close (c : Watch α) : c.close.value = c.value := rfl

@[simp] theorem value_markSeen (c : Watch α) : c.markSeen.value = c.value := rfl

@[simp] theorem unread_channel (init : α) : (channel init).unread = 0 := rfl

@[simp] theorem unread_send (c : Watch α) (value : α) :
    (c.send value).unread = c.unread + 1 := by
  have := c.seen_le
  simp only [unread, send]
  omega

@[simp] theorem unread_close (c : Watch α) : c.close.unread = c.unread := rfl

@[simp] theorem unread_markSeen (c : Watch α) : c.markSeen.unread = 0 := Nat.sub_self _

theorem unread_eq_zero {c : Watch α} : c.unread = 0 ↔ c.seen = c.version := by
  have := c.seen_le
  simp only [unread]
  omega

/-- A notification reads at least one version. -/
theorem changed_eq_ok {c c' : Watch α} :
    c.changed = some (.ok c') ↔ 0 < c.unread ∧ c' = c.markSeen := by
  rw [Nat.pos_iff_ne_zero, Ne, unread_eq_zero, changed]
  by_cases h : c.seen = c.version
  · rw [if_neg (not_not_intro h)]
    cases c.closed <;> simp [h]
  · rw [if_pos h]
    simp [h, eq_comm]

theorem changed_eq_error {c : Watch α} {e : RecvError} :
    c.changed = some (.error e) ↔ c.unread = 0 ∧ c.closed = true := by
  rw [unread_eq_zero, changed]
  by_cases h : c.seen = c.version
  · rw [if_neg (not_not_intro h)]
    cases e
    cases c.closed <;> simp [h]
  · rw [if_pos h]
    simp [h]

end Watch
