import Mathlib.Data.List.Basic
import Mathlib.Tactic.Common

/-!
# What has happened before

A trace is the list of the events so far, with the latest first. `Since keep start` says of a trace
that something has started in it and that only events that keep it have followed. What an event has
to do with what came before it is a property of the event and its past, so these statements can be
nested.
-/

namespace Mio.Library

variable {ε : Type} {keep keep' : ε → Prop} {start start' : List ε → ε → Prop} {past trace : List ε}
  {event : ε}

/-- At some event `start` held, and every event after it is one that keeps it. -/
inductive Since (keep : ε → Prop) (start : List ε → ε → Prop) : List ε → Prop
  | now {past : List ε} {event : ε} (h : start past event) : Since keep start (event :: past)
  | later {past : List ε} {event : ε} (hkeep : keep event) (h : Since keep start past) :
    Since keep start (event :: past)

/-- Since an event: it is the start, or it is kept and the rest is since. -/
theorem since_cons :
    Since keep start (event :: past) ↔ start past event ∨ keep event ∧ Since keep start past := by
  constructor
  · rintro (h | ⟨hkeep, h⟩)
    · exact .inl h
    · exact .inr ⟨hkeep, h⟩
  · rintro (h | ⟨hkeep, h⟩)
    · exact .now h
    · exact .later hkeep h

/-- With weaker conditions, it still holds. -/
theorem Since.mono (hkeep : ∀ event, keep event → keep' event)
    (hstart : ∀ past event, start past event → start' past event) (h : Since keep start trace) :
    Since keep' start' trace := by
  induction h with
  | now h => exact .now (hstart _ _ h)
  | later hevent _ ih => exact .later (hkeep _ hevent) ih

end Mio.Library
