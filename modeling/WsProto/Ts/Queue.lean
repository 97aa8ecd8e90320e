import WsProto.Lib.Mailbox
import WsProto.Ts.Stream

/-!
# The receiving end of a TypeScript stream is a mailbox

`AsyncQueue` keeps the items that wait for a pull and the pulls that wait for an item;
`queueOf` is the queue of a mailbox, and the methods of the queue are the operations of
the mailbox (`push_queueOf`, `endQueue_queueOf`, `fail_queueOf`, `pull_queueOf`).  The
queue by itself would let an error follow an end; that the stream ends it only once is
a premise of the two lemmas about the end.

The part of `recv` behind its `await` runs once per settled pull (`resume_spec`,
`resumeAll_spec`).
-/

namespace WsProto.Ts

/-! ## The queue -/

section Queue

variable {α β : Type} (g : β → Option WsStatusError)

/-- A pull's result; `g` says with which error an outcome rejects, if it does. -/
def toPull : Except β α → PullResult α
  | .ok a => .value a
  | .error b => (g b).elim .done .rejected

/-- The queue of a mailbox. -/
def queueOf (h : Mailbox α β) : AsyncQueue α :=
  { values := h.buffered
    waiters := h.parked
    ended := (h.outcome.map fun b => (g b).isNone).getD false
    error := h.outcome.bind g
    settled := h.results.map (toPull g) }

variable {g} {h : Mailbox α β}

theorem closed_queueOf :
    ((queueOf g h).ended || (queueOf g h).error.isSome) = h.outcome.isSome := by
  cases ho : h.outcome with
  | none => simp [queueOf, ho]
  | some b =>
      cases hb : g b with
      | none => simp [queueOf, ho, hb]
      | some e => simp [queueOf, ho, hb]

/-- Without an outcome the queue is open. -/
theorem queueOf_of_none (ho : h.outcome = none) :
    queueOf g h = { values := h.buffered, waiters := h.parked
                    settled := h.results.map (toPull g) } := by
  simp [queueOf, ho]

theorem push_queueOf (a : α) : (queueOf g h).push a = queueOf g (h.push a) := by
  rw [AsyncQueue.push, closed_queueOf]
  cases ho : h.outcome with
  | some b =>
      rw [h.push_of_some a (by rw [ho]; rfl)]
      rfl
  | none =>
      have ho' : (h.push a).outcome = none := by rw [h.push_outcome, ho]
      rw [if_neg (by simp), queueOf_of_none ho, queueOf_of_none ho']
      by_cases hp : 0 < h.parked
      · obtain ⟨hbuf, hres, hpark⟩ := h.push_parked a ho hp
        have hnil : h.buffered = [] := by
          by_contra hb
          rw [Mailbox.parked_eq_zero hb] at hp
          exact absurd hp (lt_irrefl 0)
        simp only [if_pos hp, hbuf, hnil, hres, hpark, List.map_append, List.map_cons, List.map_nil,
          toPull]
      · obtain ⟨hbuf, hres, hpark⟩ := h.push_unparked a ho (Nat.eq_zero_of_not_pos hp)
        rw [if_neg hp]
        simp only [hbuf, hres, hpark, Nat.eq_zero_of_not_pos hp]

/-- An outcome without error ends the queue. -/
theorem endQueue_queueOf {b : β} (ho : h.outcome = none) (hb : g b = none) :
    (queueOf g h).endQueue = queueOf g (h.finish b) := by
  obtain ⟨ho', hres, hpark⟩ := h.finish_of_none b ho
  rw [AsyncQueue.endQueue, closed_queueOf, if_neg (by simp [ho]), queueOf_of_none ho]
  simp only [queueOf, ho', hres, hpark, hb, Mailbox.finish_buffered, Option.map_some,
    Option.bind_some, Option.isNone_none, Option.getD_some, List.map_append, List.map_replicate,
    toPull, Option.elim_none]

/-- An outcome with an error fails it. -/
theorem fail_queueOf {b : β} {e : WsStatusError} (ho : h.outcome = none) (hb : g b = some e) :
    (queueOf g h).fail e = queueOf g (h.finish b) := by
  obtain ⟨ho', hres, hpark⟩ := h.finish_of_none b ho
  rw [queueOf_of_none ho]
  simp only [AsyncQueue.fail, queueOf, ho', hres, hpark, hb, Mailbox.finish_buffered,
    Option.map_some, Option.bind_some, List.map_append, List.map_replicate, toPull,
    Option.elim_some, Option.isSome_none]
  simp

theorem pull_queueOf : (queueOf g h).pull = queueOf g h.pull := by
  cases hbuf : h.buffered with
  | cons a rest =>
      obtain ⟨hbuf', hres, hpark⟩ := Mailbox.pull_buffered hbuf
      have hp : h.parked = 0 := Mailbox.parked_eq_zero (by rw [hbuf]; simp)
      simp only [AsyncQueue.pull, queueOf, hbuf, hbuf', hres, hp, hpark, Mailbox.pull_outcome,
        List.map_append, List.map_cons, List.map_nil, toPull]
  | nil =>
      cases ho : h.outcome with
      | none =>
          obtain ⟨hbuf', hres, hpark⟩ := Mailbox.pull_parked hbuf ho
          rw [queueOf_of_none ho, queueOf_of_none (by exact ho)]
          simp only [AsyncQueue.pull, hbuf, hbuf', hres, hpark]
      | some b =>
          obtain ⟨hbuf', hres, hpark⟩ := Mailbox.pull_finished hbuf ho
          have hp := Mailbox.parked_of_some ho
          cases hb : g b with
          | none =>
              simp [AsyncQueue.pull, queueOf, hbuf, hbuf', hres, hp, hpark, ho, hb, toPull]
          | some e =>
              simp [AsyncQueue.pull, queueOf, hbuf, hbuf', hres, hp, hpark, ho, hb, toPull]

end Queue

/-! ## Behind the `await` of `recv` -/

/-- The bytes a result takes out of the stream. -/
def PullResult.size : PullResult Payload → ℤ
  | .value v => v.length
  | _ => 0

namespace StreamImpl

/-- `returnCredit` changes nothing but the credit it holds back. -/
theorem returnCredit_fst (s : StreamImpl) (n : ℤ) :
    ∃ c, (s.returnCredit n).1 = { s with pendingCredit := c } := by
  unfold returnCredit
  split_ifs
  · exact ⟨_, rfl⟩
  · exact ⟨_, rfl⟩
  · exact ⟨_, rfl⟩

/-- One continuation. -/
theorem resume_spec {s : StreamImpl} {r : PullResult Payload}
    (hr : s.inbound.settled[s.resumed]? = some r) :
    ∃ c d, s.resume = some ({ s with
      resumed := s.resumed + 1
      bufferedBytes := s.bufferedBytes - r.size
      pendingCredit := c }, d) := by
  unfold resume
  rw [hr]
  cases r with
  | value v =>
      obtain ⟨c, hc⟩ := returnCredit_fst { s with
        resumed := s.resumed + 1, bufferedBytes := s.bufferedBytes - v.length } v.length
      exact ⟨c, _, congrArg some (Prod.ext hc rfl)⟩
  | done => exact ⟨s.pendingCredit, none, by simp [PullResult.size]⟩
  | rejected e => exact ⟨s.pendingCredit, none, by simp [PullResult.size]⟩

/-- The continuations of `recv`, at most `n` of them; what they write is left out. -/
def resumeTurns : ℕ → StreamImpl → StreamImpl
  | 0, s => s
  | n + 1, s =>
      match s.resume with
      | none => s
      | some (s', _) => resumeTurns n s'

/-- The microtasks after an event: every continuation that is due. -/
def resumeAll (s : StreamImpl) : StreamImpl :=
  resumeTurns (s.inbound.settled.length - s.resumed) s

theorem resumeTurns_spec (n : ℕ) : ∀ {s : StreamImpl}, s.resumed + n = s.inbound.settled.length →
    ∃ c, resumeTurns n s = { s with
      resumed := s.resumed + n
      bufferedBytes :=
        s.bufferedBytes - ((s.inbound.settled.drop s.resumed).map PullResult.size).sum
      pendingCredit := c } := by
  induction n with
  | zero =>
      intro s hn
      refine ⟨s.pendingCredit, ?_⟩
      rw [List.drop_eq_nil_of_le (by omega)]
      simp [resumeTurns]
  | succ n ih =>
      intro s hn
      have hlt : s.resumed < s.inbound.settled.length := by omega
      obtain ⟨c, d, hres⟩ := resume_spec (List.getElem?_eq_getElem hlt)
      obtain ⟨c', hc'⟩ := ih (s := { s with
        resumed := s.resumed + 1
        bufferedBytes := s.bufferedBytes - (s.inbound.settled[s.resumed]).size
        pendingCredit := c }) (by show s.resumed + 1 + n = s.inbound.settled.length; omega)
      refine ⟨c', ?_⟩
      rw [resumeTurns, hres]
      simp only [hc']
      rw [List.drop_eq_getElem_cons hlt, List.map_cons, List.sum_cons, sub_sub, add_assoc,
        Nat.add_comm 1 n]

/-- **After the microtasks** every settled pull has resumed, and its bytes are out. -/
theorem resumeAll_spec {s : StreamImpl} (hle : s.resumed ≤ s.inbound.settled.length) :
    ∃ c, s.resumeAll = { s with
      resumed := s.inbound.settled.length
      bufferedBytes :=
        s.bufferedBytes - ((s.inbound.settled.drop s.resumed).map PullResult.size).sum
      pendingCredit := c } := by
  obtain ⟨c, hc⟩ := resumeTurns_spec (s.inbound.settled.length - s.resumed) (s := s) (by omega)
  refine ⟨c, ?_⟩
  rw [resumeAll, hc, show s.resumed + (s.inbound.settled.length - s.resumed) =
    s.inbound.settled.length by omega]

/-- The bytes that left with the later results. -/
theorem sub_drop_add {b : ℤ} {l : List (PullResult Payload)} {n : ℕ} :
    b - ((l.drop n).map PullResult.size).sum + (l.map PullResult.size).sum =
      b + ((l.take n).map PullResult.size).sum := by
  have hsplit : ((l.map PullResult.size).sum : ℤ) =
      ((l.take n).map PullResult.size).sum + ((l.drop n).map PullResult.size).sum := by
    rw [← List.sum_append, ← List.map_append, List.take_append_drop]
  rw [hsplit]
  ring

/-- What was settled before an operation stays in front. -/
theorem settled_grow {β : Type} {g : β → Option WsStatusError} {s : StreamImpl}
    {h h' : Mailbox Payload β} (hin : s.inbound = queueOf g h)
    (hle : s.resumed ≤ s.inbound.settled.length) (hpre : h.results <+: h'.results) :
    s.resumed ≤ (queueOf g h').settled.length ∧
      (queueOf g h').settled.take s.resumed = s.inbound.settled.take s.resumed := by
  obtain ⟨new, hnew⟩ := hpre
  have hset : (queueOf g h').settled = s.inbound.settled ++ new.map (toPull g) := by
    rw [hin]
    show h'.results.map _ = h.results.map _ ++ _
    rw [← hnew, List.map_append]
  rw [hset, List.length_append]
  exact ⟨by omega, List.take_append_of_le_length hle⟩

/-- `resolveHeaders` on a stream whose headers are open. -/
theorem resolveHeaders_open {s : StreamImpl} (hs : s.headersSettled = false) (h : Headers) :
    s.resolveHeaders h =
      { s with leading := s.leading.or (some ∅), headersSettled := true, headers := h } := by
  simp only [resolveHeaders, resolveLeading, hs]
  rfl

end StreamImpl

/-- The bytes of all the results are those of the items taken. -/
theorem size_settled {β : Type} {g : β → Option WsStatusError} (h : Mailbox Payload β) :
    ((queueOf g h).settled.map PullResult.size).sum = bytes (h.accepted.take h.pulls) := by
  have hok : ∀ l : List Payload,
      (((l.map Except.ok).map (toPull g)).map PullResult.size).sum = bytes l := by
    intro l
    rw [List.map_map, List.map_map]
    rfl
  have herr : ∀ (b : β) (n : ℕ), (((List.replicate n (Except.error b : Except β Payload)).map
      (toPull g)).map PullResult.size).sum = 0 := by
    intro b n
    rw [List.map_replicate, List.map_replicate]
    cases hb : g b <;> simp [toPull, hb, PullResult.size]
  show ((h.results.map (toPull g)).map PullResult.size).sum = _
  rw [Mailbox.results, List.map_append, List.map_append, List.sum_append, hok]
  cases h.outcome with
  | none => exact add_zero _
  | some b =>
      rw [Option.map_some, Option.getD_some, herr, add_zero]

end WsProto.Ts
