import Mathlib.Data.List.Basic

/-!
# Buffered channels

A channel of capacity `cap` holds at most that many values. A send waits while it is full and a receive
waits while it is empty: both are steps that cannot be taken then.
-/

set_option autoImplicit false

namespace Vx6.Go

universe u

/-- A buffered channel, its oldest value first. -/
structure Chan (α : Type u) (cap : Nat) where
  buf : List α := []
  fits : buf.length ≤ cap := by exact Nat.zero_le _

namespace Chan

variable {α : Type u} {cap : Nat} {c c' : Chan α cap} {a : α}

/-- A send, if the channel is not full. -/
def send (c : Chan α cap) (a : α) : Option (Chan α cap) :=
  if h : c.buf.length < cap then some ⟨c.buf ++ [a], by rwa [List.length_append]⟩ else none

/-- A receive, if the channel is not empty. -/
def receive : Chan α cap → Option (α × Chan α cap)
  | ⟨[], _⟩ => none
  | ⟨a :: rest, h⟩ => some (a, ⟨rest, Nat.le_trans (Nat.le_succ _) h⟩)

theorem buf_of_send (h : c.send a = some c') : c'.buf = c.buf ++ [a] := by
  unfold send at h
  split at h
  · cases h
    rfl
  · cases h

theorem send_eq_some (h : c.buf.length < cap) : ∃ c', c.send a = some c' :=
  ⟨_, dif_pos h⟩

theorem buf_of_receive (h : c.receive = some (a, c')) : c.buf = a :: c'.buf := by
  obtain ⟨buf, hfits⟩ := c
  cases buf with
  | nil => cases h
  | cons b rest =>
    cases h
    rfl

theorem receive_eq_some {rest : List α} (h : c.buf = a :: rest) : ∃ c', c.receive = some (a, c') := by
  obtain ⟨buf, hfits⟩ := c
  subst h
  exact ⟨_, rfl⟩

end Chan

end Vx6.Go
