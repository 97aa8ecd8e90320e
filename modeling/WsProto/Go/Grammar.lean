import WsProto.Go.Serve

/-!
# The frames of an answer

On a connection whose writes succeed, the HEADER, MSG and END frames that
`serveStream` and the handler write for a stream are a word of `HEADER? MSG* END`.
The handler is any sequence of calls, the credit it is given any sequence of routed
frames, and the middleware any functions.

* `Event.run_cases` — what one event adds to the word, and what it does to the flags
  `headerSent` and `msgSent` that decide whether a HEADER may still come;
* `answer_frames` — what a run of events adds;
* `after_lookup_outTrailer` — the trailers are the right-biased merge of the maps
  given to `SetTrailer`;
* `answer_grammar` — the whole answer.
-/

namespace WsProto.Go.Serve

/-! ## What an answer is -/

/-- HEADER, MSG and END. -/
def isAnswer (f : Frame) : Bool :=
  match f.kind with
  | .kindHeader | .kindMsg | .kindEnd => true
  | _ => false

/-- The HEADER frame of stream `id`. -/
def headerFrame (id : UInt32) (md : Option Headers) : Frame :=
  { streamId := id, kind := .kindHeader, headers := md }

/-- The payload of a call that is a successful send. -/
def Event.sends (s : Stream) : Event → Option Payload
  | .op (.sendRaw b) =>
      match s.sendRaw b with
      | .charged _ _ => some b
      | _ => none
  | _ => none

/-- The payloads of the successful sends, in call order. -/
def sends (s : Stream) : List Event → List Payload
  | [] => []
  | e :: rest => (e.sends s).toList ++ sends (e.run s).1 rest

/-- The map of a call of `SetTrailer`. -/
def Event.trailers : Event → Option Headers
  | .op (.setTrailer md) => some md
  | _ => none

/-- The right-biased merge of some maps, as a function of the key. -/
def mergeLookup (k : Text) (mds : List Headers) : Option Text :=
  mds.foldl (fun v md => (md.lookup k).or v) none

/-- What the stream of `serveStream` does before it ends: nothing if there is no
handler for the method. -/
def Server.run (srv : Server) (s : Stream) : Option Run :=
  (srv.handler s.method).map fun h => call (chain (some h) srv.middleware) s

/-- The events of a run, none if there is no handler. -/
def events (run : Option Run) : List Event := (run.map Run.events).getD []

/-- The status of END: of an unknown method, of what the handler returned, of a
panic. -/
def endStatus (s : Stream) : Option Run → Status
  | none => { code := Code.unimplemented, message := "unknown method ".toUTF8 ++ s.method }
  | some run =>
      match run.outcome with
      | .returned err => (fromError err).getD { code := Code.ok }
      | .panicked text => panicStatus text

/-- The trailers of END. -/
def endTrailers (s : Stream) : Option Run → Option Headers
  | none => none
  | some run =>
      match run.outcome with
      | .returned _ => (after s run.events).takeTrailer
      | .panicked _ => none

/-- The value a key should have in the trailers of END: the one of the last
`SetTrailer` with that key, unless the handler panicked. -/
def endTrailer (k : Text) : Option Run → Option Text
  | none => none
  | some run =>
      match run.outcome with
      | .returned _ => mergeLookup k (run.events.filterMap Event.trailers)
      | .panicked _ => none

/-! ## One event -/

/-- A HEADER or a MSG has been sent. -/
def began (s : Stream) : Bool := s.headerSent || s.msgSent

/-- No routed frame touches the flags. -/
theorem began_onFrame (s : Stream) (f : Frame) : began (s.onFrame true f).stream = began s := by
  have h := s.onFrame_fixed true f
  rw [began, h.headerSent, h.msgSent]
  rfl

/-- **What an event adds to the answer**: a first HEADER, a MSG, or nothing. -/
theorem Event.run_cases (e : Event) (s : Stream) :
    (∃ md, began s = false ∧ (e.run s).2.toList.filter isAnswer = [headerFrame s.id md] ∧
      e.sends s = none ∧ began (e.run s).1 = true) ∨
    (∃ b, (e.run s).2.toList.filter isAnswer = [s.msgFrame b] ∧ e.sends s = some b ∧
      began (e.run s).1 = true) ∨
    ((e.run s).2.toList.filter isAnswer = [] ∧ e.sends s = none ∧ began (e.run s).1 = began s) := by
  cases e with
  | routed f => exact Or.inr (Or.inr ⟨rfl, rfl, began_onFrame s f⟩)
  | op o =>
      cases o with
      | sendHeader md =>
          simp only [Event.run, StreamOp.run, Stream.sendHeader]
          split_ifs with hb
          · exact Or.inr (Or.inr ⟨rfl, rfl, rfl⟩)
          · exact Or.inl ⟨md, Bool.eq_false_iff.2 hb, rfl, rfl, rfl⟩
      | sendRaw b =>
          simp only [Event.run, StreamOp.run, Event.sends]
          cases hsend : s.sendRaw b with
          | charged s' f =>
              rw [Stream.sendRaw] at hsend
              split_ifs at hsend
              · cases hsend
                exact Or.inr (Or.inl ⟨b, rfl, rfl, by simp [began, Stream.chargeSend]⟩)
              · cases hb : s.sendBlockErrLocked <;> simp [hb] at hsend
          | failed err => exact Or.inr (Or.inr ⟨rfl, rfl, rfl⟩)
          | wait => exact Or.inr (Or.inr ⟨rfl, rfl, rfl⟩)
      | closeSend =>
          simp only [Event.run, StreamOp.run, Stream.closeSend]
          split_ifs <;> exact Or.inr (Or.inr ⟨rfl, rfl, rfl⟩)
      | returnCredit n =>
          obtain ⟨p, hp⟩ := s.returnCredit_fst n
          simp only [Event.run, StreamOp.run, hp]
          split_ifs <;> exact Or.inr (Or.inr ⟨rfl, rfl, rfl⟩)
      | popRecv =>
          simp only [Event.run, StreamOp.run, Stream.popRecv]
          cases s.recvItems <;> exact Or.inr (Or.inr ⟨rfl, rfl, rfl⟩)
      | setTrailer md =>
          simp only [Event.run, StreamOp.run, Stream.setTrailer]
          split_ifs <;> exact Or.inr (Or.inr ⟨rfl, rfl, rfl⟩)
      | applyEnd f => exact Or.inr (Or.inr ⟨rfl, rfl, rfl⟩)
      | closeResponse => exact Or.inr (Or.inr ⟨rfl, rfl, rfl⟩)
      | expire err => exact Or.inr (Or.inr ⟨rfl, rfl, rfl⟩)

/-! ## A run of events -/

/-- The frames some events write. -/
def frames (s : Stream) : List Event → List Frame
  | [] => []
  | e :: rest => (e.run s).2.toList ++ frames (e.run s).1 rest

theorem writeFrame_isSome {marshalFrame : Frame → Option (List UInt8)} {f : Frame}
    (hm : (marshalFrame f).isSome) (sock : List Frame) :
    writeFrame marshalFrame sock f = sock ++ [f] := by
  obtain ⟨b, hb⟩ := Option.isSome_iff_exists.1 hm
  rw [writeFrame, hb]

/-- Where every write succeeds, these are what reaches the socket. -/
theorem written_eq {marshalFrame : Frame → Option (List UInt8)} (events : List Event) (s : Stream)
    (hm : ∀ f ∈ frames s events, (marshalFrame f).isSome) (sock : List Frame) :
    written marshalFrame s sock events = sock ++ frames s events := by
  induction events generalizing s sock with
  | nil => exact (List.append_nil sock).symm
  | cons e rest ih =>
      rw [frames] at hm ⊢
      have hrest : ∀ f ∈ frames (e.run s).1 rest, (marshalFrame f).isSome :=
        fun f hf => hm f (List.mem_append_right _ hf)
      rw [written, ih _ hrest, ← List.append_assoc]
      cases hw : (e.run s).2 with
      | none => rw [Option.toList_none, List.append_nil]
      | some f =>
          rw [hw] at hm
          have hf : (marshalFrame f).isSome := hm f (List.mem_append_left _ List.mem_cons_self)
          dsimp only
          rw [writeFrame_isSome hf, Option.toList_some]

/-- The messages of a stream carry its id throughout. -/
theorem Event.run_msgFrame (e : Event) (s : Stream) : (e.run s).1.msgFrame = s.msgFrame := by
  funext b
  rw [Stream.msgFrame, Stream.msgFrame, e.run_id]

/-- Once a HEADER or a MSG is out, only messages follow. -/
theorem answer_frames_began (events : List Event) (s : Stream) (hs : began s = true) :
    (frames s events).filter isAnswer = (sends s events).map s.msgFrame := by
  induction events generalizing s with
  | nil => rfl
  | cons e rest ih =>
      have hmsg := e.run_msgFrame s
      rw [frames, sends, List.filter_append, List.map_append, ← hmsg]
      rcases e.run_cases s with ⟨md, hb, -⟩ | ⟨b, hf, hsend, hb⟩ | ⟨hf, hsend, hb⟩
      · rw [hs] at hb
        cases hb
      · rw [ih _ hb, hf, hsend, hmsg]
        rfl
      · rw [ih _ (hb.trans hs), hf, hsend]
        rfl

/-- **What a run of events adds to the answer**: at most one HEADER, and the payloads
of the successful sends after it. -/
theorem answer_frames (events : List Event) (s : Stream) :
    ∃ hdr : Option (Option Headers), (frames s events).filter isAnswer =
      (hdr.map (headerFrame s.id)).toList ++ (sends s events).map s.msgFrame := by
  induction events generalizing s with
  | nil => exact ⟨none, rfl⟩
  | cons e rest ih =>
      have hid := e.run_id s
      have hmsg := e.run_msgFrame s
      rw [frames, sends, List.filter_append, List.map_append, ← hmsg]
      rcases e.run_cases s with ⟨md, -, hf, hsend, hb⟩ | ⟨b, hf, hsend, hb⟩ | ⟨hf, hsend, -⟩
      · refine ⟨some md, ?_⟩
        rw [answer_frames_began rest _ hb, hf, hsend]
        rfl
      · refine ⟨none, ?_⟩
        rw [answer_frames_began rest _ hb, hf, hsend, hmsg]
        rfl
      · obtain ⟨hdr, hrest⟩ := ih (e.run s).1
        refine ⟨hdr, ?_⟩
        rw [hrest, hf, hsend, hid]
        rfl

/-! ## The trailers -/

/-- Inserting the entries of a map one by one overrides what was there. -/
theorem lookup_foldl_insert (k : Text) (l : List ((_ : Text) × Text)) (hl : l.NodupKeys)
    (h : Headers) :
    (l.foldl (fun m e => m.insert e.1 e.2) h).lookup k = (l.dlookup k).or (h.lookup k) := by
  induction l generalizing h with
  | nil => rfl
  | cons e l ih =>
      obtain ⟨k', v⟩ := e
      rw [List.nodupKeys_cons] at hl
      rw [List.foldl_cons, ih hl.2]
      by_cases hk : k = k'
      · subst hk
        rw [List.dlookup_cons_eq, List.dlookup_eq_none.2 hl.1, AList.lookup_insert]
        rfl
      · rw [List.dlookup_cons_ne _ _ hk, AList.lookup_insert_ne hk]

/-- `SetTrailer` overrides the trailers set before. -/
theorem lookup_setTrailer (k : Text) (s : Stream) (md : Headers) :
    (((s.setTrailer md).outTrailer).getD ∅).lookup k =
      (md.lookup k).or ((s.outTrailer.getD ∅).lookup k) := by
  rw [Stream.setTrailer]
  split
  · rename_i hnil
    have hnone : md.lookup k = none := by rw [AList.lookup, hnil]; rfl
    rw [hnone, Option.none_or]
  · exact lookup_foldl_insert k md.entries md.nodupKeys _

/-- The trailers after a run of events. -/
theorem after_lookup_outTrailer (k : Text) (events : List Event) (s : Stream) :
    ((after s events).outTrailer.getD ∅).lookup k =
      (events.filterMap Event.trailers).foldl (fun v md => (md.lookup k).or v)
        ((s.outTrailer.getD ∅).lookup k) := by
  induction events generalizing s with
  | nil => rfl
  | cons e rest ih =>
      have hcons : after s (e :: rest) = after (e.run s).1 rest := rfl
      rw [hcons, ih]
      by_cases hset : ∃ md, e = .op (.setTrailer md)
      · obtain ⟨md, rfl⟩ := hset
        have hrun : (Event.run s (.op (.setTrailer md))).1 = s.setTrailer md := rfl
        rw [hrun, lookup_setTrailer]
        rfl
      · have hout : (e.run s).1.outTrailer = s.outTrailer :=
          (e.run_outTrailer s).resolve_right hset
        have hnone : e.trailers = none := by
          unfold Event.trailers
          split
          · exact absurd ⟨_, rfl⟩ hset
          · rfl
        rw [hout, List.filterMap_cons_none hnone]

/-- The trailers of END are the merge. -/
theorem lookup_endTrailers (k : Text) {s : Stream} (hs : s.outTrailer = none) (run : Option Run) :
    ((endTrailers s run).getD ∅).lookup k = endTrailer k run := by
  cases run with
  | none => rfl
  | some run =>
      rw [endTrailers, endTrailer]
      cases run.outcome with
      | returned err =>
          rw [Stream.takeTrailer, after_lookup_outTrailer, hs]
          rfl
      | panicked text => rfl

/-! ## The answer -/

/-- `serveStream` is `end` after the events of the handler. -/
theorem serveStream_eq (marshalFrame : Frame → Option (List UInt8)) (srv : Server) (s : Stream)
    (sock : List Frame) :
    srv.serveStream marshalFrame s sock =
      endStream marshalFrame (after s (events (srv.run s)))
        (written marshalFrame s sock (events (srv.run s)))
        (endStatus s (srv.run s)) (endTrailers s (srv.run s)) := by
  unfold Server.serveStream Server.run
  cases srv.handler s.method with
  | none => rfl
  | some h =>
      simp only [Option.map_some, events, Option.getD_some, endStatus, endTrailers]
      cases (call (chain (some h) srv.middleware) s).outcome <;> rfl

/-- `end` after some events. -/
theorem endStream_answer {marshalFrame : Frame → Option (List UInt8)} {s : Stream}
    {evs : List Event} {st : Status} {tr : Option Headers}
    (hm : ∀ f ∈ frames s evs ++ [s.endFrameOf st tr], (marshalFrame f).isSome)
    (sock : List Frame) :
    ∃ (w : List Frame) (hdr : Option (Option Headers)),
      (endStream marshalFrame (after s evs) (written marshalFrame s sock evs) st tr).2 =
        sock ++ w ∧
      w.filter isAnswer = (hdr.map (headerFrame s.id)).toList ++
        (sends s evs).map s.msgFrame ++ [s.endFrameOf st tr] := by
  obtain ⟨hdr, hframes⟩ := answer_frames evs s
  refine ⟨frames s evs ++ [s.endFrameOf st tr], hdr, ?_, ?_⟩
  · have hend : (after s evs).endFrameOf st tr = s.endFrameOf st tr := by
      rw [Stream.endFrameOf, after_id]
      rfl
    have hlast : (marshalFrame (s.endFrameOf st tr)).isSome :=
      hm _ (List.mem_append_right _ (List.mem_singleton.2 rfl))
    have hrun : ∀ f ∈ frames s evs, (marshalFrame f).isSome :=
      fun f hf => hm f (List.mem_append_left _ hf)
    rw [endStream, hend, writeFrame_isSome hlast, written_eq evs s hrun, List.append_assoc]
  · rw [List.filter_append, hframes]
    rfl

/-- The frames `serveStream` and the handler try to write for a stream. -/
def Server.attempts (srv : Server) (s : Stream) : List Frame :=
  frames s (events (srv.run s)) ++
    [s.endFrameOf (endStatus s (srv.run s)) (endTrailers s (srv.run s))]

/-- **The grammar of an answer.**  For every server, handler and middleware, and every
history of routed frames, where every write succeeds: what is written for a fresh
stream is, among HEADER, MSG and END frames, at most one HEADER, then a MSG for every
successful send in call order, then one END with the status of the outcome and the
merged trailers. -/
theorem answer_grammar (marshalFrame : Frame → Option (List UInt8)) (srv : Server)
    (ctxErr : Option CtxErr) (id : UInt32) (method : Text) (W : ℤ) (header : Option Headers)
    (hm : ∀ f ∈ srv.attempts { newStream ctxErr id method W with header },
      (marshalFrame f).isSome) (sock : List Frame) :
    let s : Stream := { newStream ctxErr id method W with header }
    ∃ (w : List Frame) (hdr : Option (Option Headers)) (tr : Option Headers),
      (srv.serveStream marshalFrame s sock).2 = sock ++ w ∧
      w.filter isAnswer = (hdr.map (headerFrame id)).toList ++
        (sends s (events (srv.run s))).map s.msgFrame ++
        [s.endFrameOf (endStatus s (srv.run s)) tr] ∧
      ∀ k, (tr.getD ∅).lookup k = endTrailer k (srv.run s) := by
  intro s
  obtain ⟨w, hdr, hsock, hw⟩ := endStream_answer hm sock
  refine ⟨w, hdr, endTrailers s (srv.run s), ?_, hw, ?_⟩
  · rw [serveStream_eq, hsock]
  · intro k
    exact lookup_endTrailers k rfl _

/-- A handler that sends a header, a message and a trailer, and returns. -/
def echoing : Server :=
  { unknownHandler := some fun _ =>
      { events := [.op (.sendHeader none), .op (.sendRaw [1]),
          .op (.setTrailer ((∅ : Headers).insert "k".toUTF8 "v".toUTF8))]
        outcome := .returned none } }

/-- The word of that handler's answer, with its only message. -/
theorem answer_grammar_echoing :
    (∀ f ∈ echoing.attempts (newStream none 1 .empty 4), (strictMarshal f).isSome) ∧
      ∃ (w : List Frame) (hdr : Option (Option Headers)) (tr : Option Headers),
        (echoing.serveStream strictMarshal (newStream none 1 .empty 4) []).2 = [] ++ w ∧
        w.filter isAnswer = (hdr.map (headerFrame 1)).toList ++
          [{ streamId := 1, kind := .kindMsg, payload := [1] },
            (newStream none 1 .empty 4).endFrameOf { code := Code.ok } tr] ∧
        (tr.getD ∅).lookup "k".toUTF8 = some "v".toUTF8 := by
  have hm : ∀ f ∈ echoing.attempts (newStream none 1 .empty 4), (strictMarshal f).isSome := by
    decide
  refine ⟨hm, ?_⟩
  obtain ⟨w, hdr, tr, hsock, hw, htr⟩ := answer_grammar strictMarshal echoing none 1 .empty 4 none
    hm []
  refine ⟨w, hdr, tr, hsock, ?_, ?_⟩
  · rw [hw, List.append_assoc]
    rfl
  · rw [htr]
    decide

end WsProto.Go.Serve
