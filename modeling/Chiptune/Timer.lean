import Chiptune.Notice
/-!
# Periodic timer

A timer fires at multiples of its period after it was begun, as long as it is armed.
Disarming keeps it running without firing; ending stops it. Time is a count of microseconds
since the timer was begun.
-/

set_option autoImplicit false

namespace Chiptune

/-- Why a timer is not begun. -/
inductive TimerFault where
  | alreadyRunning
  | zeroPeriod
deriving DecidableEq, Repr

/-- Wording of the fault. -/
def TimerFault.message : TimerFault → String
  | alreadyRunning => "periodic timer is already running"
  | zeroPeriod => "periodic timer period must be non-zero"

/-- State of a timer. -/
structure Timer where
  armed : Bool := false
  running : Bool := false
  /-- Period in microseconds, kept after the end. -/
  period : Nat := 0
  /-- Microseconds since the timer was begun. -/
  elapsed : Nat := 0
deriving DecidableEq, Repr

namespace Timer

/-- Begins to fire. -/
def start (t : Timer) (micros : Nat) : Outcome Timer (Except TimerFault Unit) :=
  if t.running then
    { result := .error .alreadyRunning, state := t }
  else if micros = 0 then
    { result := .error .zeroPeriod, state := t }
  else
    { result := .ok ()
      state := { armed := true, running := true, period := micros, elapsed := 0 }
      notices := [.timerStarted micros] }

/-- Suppresses further firings. -/
def disarm (t : Timer) : Timer := { t with armed := false }

/-- Stops the timer. -/
def stop (t : Timer) : Outcome Timer Unit :=
  { result := ()
    state := { t with armed := false, running := false }
    notices := if t.running then [.timerStopped] else [] }

/-- Whether the timer fires at all. -/
def firing (t : Timer) : Bool := t.armed && t.running

/-- Firings up to a time. -/
def firingsBy (t : Timer) (time : Nat) : Nat := if t.firing then time / t.period else 0

/-- Lets time pass and gives the number of firings. -/
def pass (t : Timer) (micros : Nat) : Nat × Timer :=
  let now := t.elapsed + micros
  (t.firingsBy now - t.firingsBy t.elapsed, { t with elapsed := now })

/-- Waits for a number of firings, at most for a time, and says whether they came. -/
def await (t : Timer) (count limit : Nat) : Bool × Timer :=
  let due := (t.elapsed / t.period + count) * t.period
  if count = 0 then
    (true, t)
  else if t.firing && due ≤ t.elapsed + limit then
    (true, { t with elapsed := due })
  else
    (false, { t with elapsed := t.elapsed + limit })

end Timer

end Chiptune
