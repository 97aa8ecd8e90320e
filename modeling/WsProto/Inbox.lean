import WsProto.Lib.Mailbox
import WsProto.Wire

/-!
# What a client should receive

The inbound half of one client stream, whatever runtime it is in: frames arrive,
receive calls are made, and what can be seen is the mailbox of the payloads that were
let in.  A message is let in unless what is buffered already exceeds the window; then
the stream has overflowed, which ends it like a terminal frame does.
-/

namespace WsProto.Inbox

/-- What happens to a stream, each event run until nothing more can happen. -/
inductive Event where
  | frame (f : Frame)
  | recv
  deriving DecidableEq

/-- What ended a stream. -/
inductive Cause where
  /-- An END or RST. -/
  | frame (f : Frame)
  | overflow
  deriving DecidableEq

/-- The trailers of a stream that has ended. -/
def Cause.trailers : Cause → Headers
  | .frame f => f.headers.getD ∅
  | .overflow => ∅

/-- The kinds of frames a server sends to a stream that is open. -/
def inbound : Kind → Bool
  | .kindHeader | .kindMsg | .kindWindowUpdate | .kindEnd | .kindRst => true
  | _ => false

/-- A frame for the first stream of a connection, of one of those kinds. -/
def Addressed (f : Frame) : Prop := f.streamId = 1 ∧ inbound f.kind = true

/-- One event, where `limit` is the window. -/
def step (limit : ℤ) (h : Mailbox Payload Cause) : Event → Mailbox Payload Cause
  | .recv => h.pull
  | .frame f =>
      match f.kind with
      | .kindMsg => if limit < bytes h.buffered then h.finish .overflow else h.push f.payload
      | .kindEnd | .kindRst => h.finish (.frame f)
      | _ => h

theorem step_of_finished {limit : ℤ} {h : Mailbox Payload Cause} (ho : h.outcome.isSome)
    (f : Frame) : step limit h (.frame f) = h := by
  simp only [step]
  split
  · split
    · exact Mailbox.finish_of_some _ ho
    · exact Mailbox.push_of_some _ ho
  · exact Mailbox.finish_of_some _ ho
  · exact Mailbox.finish_of_some _ ho
  · rfl

/-- What has been received stays. -/
theorem results_prefix_step (limit : ℤ) (h : Mailbox Payload Cause) (e : Event) :
    h.results <+: (step limit h e).results := by
  cases e with
  | recv => exact Mailbox.results_prefix_pull
  | frame f =>
      simp only [step]
      split
      · split
        · exact Mailbox.results_prefix_finish _
        · exact Mailbox.results_prefix_push _
      · exact Mailbox.results_prefix_finish _
      · exact Mailbox.results_prefix_finish _
      · exact List.prefix_rfl

/-- A frame is no receive call. -/
theorem step_pulls (limit : ℤ) (h : Mailbox Payload Cause) (f : Frame) :
    (step limit h (.frame f)).pulls = h.pulls := by
  simp only [step]
  split
  · split
    · rfl
    · rw [Mailbox.push]
      split <;> rfl
  · rfl
  · rfl
  · rfl

/-- A frame that has ended the stream is an END or an RST. -/
def Terminated (h : Mailbox Payload Cause) : Prop :=
  ∀ f, h.outcome = some (.frame f) → f.kind = .kindEnd ∨ f.kind = .kindRst

theorem Terminated.finish {h : Mailbox Payload Cause} (hh : Terminated h) {c : Cause}
    (hc : ∀ f, c = .frame f → f.kind = .kindEnd ∨ f.kind = .kindRst) :
    Terminated (h.finish c) := by
  cases ho : h.outcome with
  | some b => rw [h.finish_of_some c (by rw [ho]; rfl)]; exact hh
  | none =>
      intro f hf
      rw [(h.finish_of_none c ho).1] at hf
      exact hc f (Option.some.inj hf)

theorem Terminated.step {limit : ℤ} {h : Mailbox Payload Cause} (hh : Terminated h) (e : Event) :
    Terminated (step limit h e) := by
  cases e with
  | recv => exact hh
  | frame f =>
      simp only [Inbox.step]
      split
      · split
        · exact hh.finish fun f' hf' => by cases hf'
        · intro f' hf'
          rw [Mailbox.push_outcome] at hf'
          exact hh f' hf'
      · rename_i hk
        exact hh.finish fun f' hf' => by cases hf'; exact Or.inl hk
      · rename_i hk
        exact hh.finish fun f' hf' => by cases hf'; exact Or.inr hk
      · exact hh

theorem terminated_foldl {limit : ℤ} (evs : List Event) : ∀ {h : Mailbox Payload Cause},
    Terminated h → Terminated (evs.foldl (step limit) h) := by
  induction evs with
  | nil => exact id
  | cons e evs ih =>
      intro h hh
      exact ih (hh.step e)

end WsProto.Inbox
