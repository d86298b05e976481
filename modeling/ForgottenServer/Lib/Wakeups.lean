import Mathlib

/-! # Threads that wait for work

Threads wait on a condition variable while there is no work. Who adds work notifies one of them, after the lock is given
back, so that work may be there while everybody sleeps. `Covered`: then somebody is about to be woken for each piece. -/

namespace Wakeups

/-- How many threads are about to look for work, sleep or work, how many notifications are still to come, and how much
work there is. -/
structure Counts where
  awake : Nat
  asleep : Nat
  busy : Nat
  notifies : Nat
  work : Nat

/-- If somebody sleeps, each piece of work has somebody who comes for it. -/
def Counts.Covered (c : Counts) : Prop := c.asleep = 0 ∨ c.work ≤ c.awake + c.notifies

/-- One step of the threads. -/
inductive Step (c : Counts) : Counts → Prop where
  /-- Nobody sleeps who could be notified. -/
  | waste (hnotify : 0 < c.notifies) (hnone : c.asleep = 0) : Step c { c with notifies := c.notifies - 1 }
  | notify (hnotify : 0 < c.notifies) (hsome : 0 < c.asleep) :
    Step c { c with notifies := c.notifies - 1, asleep := c.asleep - 1, awake := c.awake + 1 }
  | take (hawake : 0 < c.awake) (hwork : 0 < c.work) :
    Step c { c with awake := c.awake - 1, busy := c.busy + 1, work := c.work - 1 }
  | sleep (hawake : 0 < c.awake) (hwork : c.work = 0) :
    Step c { c with awake := c.awake - 1, asleep := c.asleep + 1 }
  | leave (hawake : 0 < c.awake) (hwork : c.work = 0) : Step c { c with awake := c.awake - 1 }
  | finish (hbusy : 0 < c.busy) : Step c { c with busy := c.busy - 1, awake := c.awake + 1 }

/-- What is left to do, which every step makes less. -/
def Counts.rank (c : Counts) : Nat := 2 * c.work + 2 * c.busy + c.awake + 2 * c.notifies

variable {c c' : Counts}

theorem Step.rank_lt (h : Step c c') : c'.rank < c.rank := by
  unfold Counts.rank
  cases h <;> simp only <;> omega

theorem Counts.Covered.step (h : c.Covered) (hstep : Step c c') : c'.Covered := by
  unfold Counts.Covered at *
  cases hstep <;> simp only <;> omega

/-- More work, with a notification. -/
theorem Counts.Covered.post (h : c.Covered) :
    ({ c with work := c.work + 1, notifies := c.notifies + 1 } : Counts).Covered := by
  unfold Counts.Covered at *
  simp only
  omega

/-- Somebody wakes without being notified. -/
theorem Counts.Covered.wake (h : c.Covered) (hsome : 0 < c.asleep) :
    ({ c with asleep := c.asleep - 1, awake := c.awake + 1 } : Counts).Covered := by
  unfold Counts.Covered at *
  simp only
  omega

/-- One thread more. -/
theorem Counts.Covered.join (h : c.Covered) : ({ c with awake := c.awake + 1 } : Counts).Covered := by
  unfold Counts.Covered at *
  simp only
  omega

/-- When nothing moves any more, there is no work, or there is nobody to do it. -/
theorem Counts.Covered.idle (h : c.Covered) (hawake : c.awake = 0) (hnotifies : c.notifies = 0) :
    c.asleep = 0 ∨ c.work = 0 := by
  unfold Counts.Covered at h
  omega

end Wakeups
