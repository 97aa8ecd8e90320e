import WsProto.Ts.Queue
import WsProto.Ts.Ledger

/-!
# The frames a TypeScript client writes

A mux with any number of streams, under any sequence of calls and socket events, as in
`WsProto.Ts.Ledger`.  For each stream id the frames `writeFrame` has accepted are a word of
the grammar

    OPEN (MSG | WINDOW_UPDATE)* [HALF_CLOSE (MSG | WINDOW_UPDATE)*] [RST]

or the beginning of one, and the ids of the OPEN frames grow.  (A MSG behind the HALF_CLOSE
is one that waited for credit when the stream was half-closed.)

What a stream may write depends on two of its flags, and every method is a sequence of a few
changes of them, each with the frame it comes with (`Talk`).

* `Spoken.talk` — such a sequence keeps to the grammar;
* `utters_call` — every method is one;
* `wire_grammar` — so every run keeps to it.
-/

namespace WsProto.Ts.WireGrammar

open Machine Ledger

/-! ## The grammar -/

/-- OPEN, then messages and credit, with `HALF_CLOSE` among them once if `c`. -/
def Open (c : Bool) (ks : List Kind) : Prop :=
  ∃ body, ks = .kindOpen :: body ∧
    (∀ k ∈ body, k = .kindMsg ∨ k = .kindWindowUpdate ∨ k = .kindHalfClose) ∧
    body.count .kindHalfClose = if c then 1 else 0

/-- A word, or the beginning of one. -/
def Word (ks : List Kind) : Prop :=
  ks = [] ∨ ∃ c ks', Open c ks' ∧ (ks = ks' ∨ ks = ks' ++ [.kindRst])

theorem Open.word {c : Bool} {ks : List Kind} (h : Open c ks) : Word ks :=
  .inr ⟨c, ks, h, .inl rfl⟩

theorem Open.reset {c : Bool} {ks : List Kind} (h : Open c ks) : Word (ks ++ [.kindRst]) :=
  .inr ⟨c, ks, h, .inr rfl⟩

theorem Open.message {c : Bool} {ks : List Kind} {k : Kind} (h : Open c ks)
    (hk : k = .kindMsg ∨ k = .kindWindowUpdate) : Open c (ks ++ [k]) := by
  obtain ⟨body, rfl, hall, hcount⟩ := h
  refine ⟨body ++ [k], rfl, ?_, ?_⟩
  · intro k' hk'
    rcases List.mem_append.1 hk' with hk' | hk'
    · exact hall k' hk'
    · rw [List.mem_singleton.1 hk']
      exact hk.imp_right .inl
  · rw [List.count_append, hcount]
    rcases hk with rfl | rfl <;> rfl

theorem Open.halfClose {ks : List Kind} (h : Open false ks) :
    Open true (ks ++ [.kindHalfClose]) := by
  obtain ⟨body, rfl, hall, hcount⟩ := h
  refine ⟨body ++ [.kindHalfClose], rfl, ?_, ?_⟩
  · intro k hk
    rcases List.mem_append.1 hk with hk | hk
    · exact hall k hk
    · exact .inr (.inr (List.mem_singleton.1 hk))
  · rw [List.count_append, hcount]
    rfl

/-- The grammar is closed under prefixes. -/
theorem Open.of_initial {c : Bool} {ks ks' : List Kind} (h : Open c ks) (hpre : ks' <+: ks) :
    Word ks' := by
  obtain ⟨body, rfl, hall, hcount⟩ := h
  cases ks' with
  | nil => exact .inl rfl
  | cons k body' =>
      obtain ⟨rfl, htail⟩ := List.cons_prefix_cons.1 hpre
      have hle : body'.count .kindHalfClose ≤ 1 := by
        have hc := htail.sublist.count_le Kind.kindHalfClose
        rw [hcount] at hc
        split at hc <;> omega
      refine Open.word (c := decide (body'.count .kindHalfClose = 1))
        ⟨body', rfl, fun k hk => hall k (htail.subset hk), ?_⟩
      by_cases h1 : body'.count .kindHalfClose = 1
      · simp [h1]
      · rw [if_neg (by simpa using h1)]
        omega

theorem Word.of_initial {ks ks' : List Kind} (h : Word ks) (hpre : ks' <+: ks) : Word ks' := by
  obtain rfl | ⟨c, w, hw, rfl | rfl⟩ := h
  · exact .inl (List.prefix_nil.1 hpre)
  · exact hw.of_initial hpre
  · rcases List.prefix_concat_iff.1 hpre with rfl | hpre
    · exact hw.reset
    · exact hw.of_initial hpre

/-! ## Conversations -/

/-- What decides what a stream may write. -/
structure Flags where
  finished : Bool
  sendClosed : Bool
  deriving DecidableEq

/-- A stream is as it was, or it has finished, in silence only if it is one of `hush`. -/
def Rests (hush : Prop) (a b : Flags) : Prop :=
  b = a ∨ b.finished = true ∧ (a.finished = true ∨ hush)

/-- From the streams `v` to the streams `v'` the frames of some kinds were written, each on
one of the streams.  The streams of `hush` may finish without a frame, those of `fresh` may
start. -/
inductive Talk (hush fresh : Ref → Prop) : List Flags → List (Ref × Kind) → List Flags → Prop
  | trans {v v' v'' : List Flags} {a b : List (Ref × Kind)} : Talk hush fresh v a v' →
      Talk hush fresh v' b v'' → Talk hush fresh v (a ++ b) v''
  | settle {v v' : List Flags} : v'.length = v.length →
      (∀ (r : Ref) (a b : Flags), v[r]? = some a → v'[r]? = some b → Rests (hush r) a b) →
      Talk hush fresh v [] v'
  | opens {v : List Flags} : fresh v.length →
      Talk hush fresh v [(v.length, .kindOpen)] (v ++ [⟨false, false⟩])
  /-- A stream that finishes before its OPEN is written. -/
  | stillborn {v : List Flags} (c : Bool) : hush v.length → Talk hush fresh v [] (v ++ [⟨true, c⟩])
  | message {v : List Flags} {r : Ref} {c : Bool} {k : Kind} : v[r]? = some ⟨false, c⟩ →
      (k = .kindMsg ∨ k = .kindWindowUpdate) → Talk hush fresh v [(r, k)] v
  | halfClose {v : List Flags} {r : Ref} : v[r]? = some ⟨false, false⟩ →
      Talk hush fresh v [(r, .kindHalfClose)] (v.set r ⟨false, true⟩)
  | reset {v : List Flags} {r : Ref} {c : Bool} : v[r]? = some ⟨false, c⟩ →
      Talk hush fresh v [(r, .kindRst)] (v.set r ⟨true, true⟩)

variable {hush fresh : Ref → Prop}

theorem Talk.refl (v : List Flags) : Talk hush fresh v [] v :=
  .settle rfl fun _ _ _ ha hb => .inl (Option.some.inj (hb.symm.trans ha))

theorem of_getElem?_concat {v : List Flags} {a b : Flags} {r : Ref}
    (h : (v ++ [a])[r]? = some b) : v[r]? = some b ∨ r = v.length ∧ a = b := by
  rw [List.getElem?_append] at h
  split_ifs at h with hr
  · exact .inl h
  · obtain ⟨hlt, rfl⟩ := List.getElem?_eq_some_iff.1 h
    have hzero := Nat.lt_one_iff.1 hlt
    exact .inr ⟨le_antisymm (Nat.sub_eq_zero_iff_le.1 hzero) (not_lt.1 hr), by simp [hzero]⟩

/-- **One stream in a conversation.**  If it runs afterwards, it ran before or has started; if
it has finished, it had finished before, has said so or is one of `hush`. -/
theorem Talk.stream {v v' : List Flags} {a : List (Ref × Kind)} (h : Talk hush fresh v a v')
    {r : Ref} : ∀ {b : Flags}, v'[r]? = some b →
      (b.finished = false → (∃ c, v[r]? = some c ∧ c.finished = false) ∨ fresh r) ∧
      (b.finished = true →
        (∃ c, v[r]? = some c ∧ c.finished = true) ∨ (r, .kindRst) ∈ a ∨ hush r) := by
  induction h with
  | trans _ _ ih ih' =>
      intro b hb
      constructor
      · intro hlive
        rcases (ih' hb).1 hlive with ⟨c, hc, hclive⟩ | hr
        · exact (ih hc).1 hclive
        · exact .inr hr
      · intro hfin
        rcases (ih' hb).2 hfin with ⟨c, hc, hcfin⟩ | hrst | hr
        · exact ((ih hc).2 hcfin).imp_right (Or.imp_left (List.mem_append_left _))
        · exact .inr (.inl (List.mem_append_right _ hrst))
        · exact .inr (.inr hr)
  | settle hlen hset =>
      intro b hb
      rename_i v v'
      have hlt : r < v.length := hlen ▸ (List.getElem?_eq_some_iff.1 hb).1
      have hold := List.getElem?_eq_getElem hlt
      rcases hset r _ _ hold hb with heq | ⟨hfin, hwas⟩
      · exact ⟨fun hlive => .inl ⟨_, hold, heq ▸ hlive⟩, fun hfin => .inl ⟨_, hold, heq ▸ hfin⟩⟩
      · refine ⟨fun hlive => Bool.noConfusion (hlive.symm.trans hfin), fun _ => ?_⟩
        exact hwas.imp (fun hwas => ⟨_, hold, hwas⟩) .inr
  | opens hfresh =>
      intro b hb
      rename_i v
      rcases of_getElem?_concat hb with hb | ⟨rfl, rfl⟩
      · exact ⟨fun hlive => .inl ⟨b, hb, hlive⟩, fun hfin => .inl ⟨b, hb, hfin⟩⟩
      · exact ⟨fun _ => .inr hfresh, fun hfin => Bool.noConfusion hfin⟩
  | stillborn c hhush =>
      intro b hb
      rcases of_getElem?_concat hb with hb | ⟨rfl, rfl⟩
      · exact ⟨fun hlive => .inl ⟨b, hb, hlive⟩, fun hfin => .inl ⟨b, hb, hfin⟩⟩
      · exact ⟨fun hlive => Bool.noConfusion hlive, fun _ => .inr (.inr hhush)⟩
  | message =>
      intro b hb
      exact ⟨fun hlive => .inl ⟨b, hb, hlive⟩, fun hfin => .inl ⟨b, hb, hfin⟩⟩
  | halfClose hq =>
      intro b hb
      rw [List.getElem?_set] at hb
      split_ifs at hb with heq
      · cases hb
        exact ⟨fun _ => .inl ⟨_, heq ▸ hq, rfl⟩, fun hfin => Bool.noConfusion hfin⟩
      · exact ⟨fun hlive => .inl ⟨b, hb, hlive⟩, fun hfin => .inl ⟨b, hb, hfin⟩⟩
  | reset hq =>
      intro b hb
      rw [List.getElem?_set] at hb
      split_ifs at hb with heq
      · cases hb
        exact ⟨fun hlive => Bool.noConfusion hlive,
          fun _ => .inr (.inl (heq ▸ List.mem_singleton.2 rfl))⟩
      · exact ⟨fun hlive => .inl ⟨b, hb, hlive⟩, fun hfin => .inl ⟨b, hb, hfin⟩⟩

/-- The kinds written on a stream. -/
def kindsOf (said : List (Ref × Kind)) (r : Ref) : List Kind :=
  (said.filter fun e => e.1 = r).map Prod.snd

@[simp] theorem kindsOf_append (a b : List (Ref × Kind)) (r : Ref) :
    kindsOf (a ++ b) r = kindsOf a r ++ kindsOf b r := by
  simp [kindsOf]

theorem kindsOf_self (r : Ref) (k : Kind) : kindsOf [(r, k)] r = [k] := by
  simp [kindsOf]

theorem kindsOf_ne {r r' : Ref} (h : r' ≠ r) (k : Kind) : kindsOf [(r, k)] r' = [] := by
  simp [kindsOf, h.symm]

/-- What a stream has written so far, by its flags. -/
def Stands (ks : List Kind) : Option Flags → Prop
  | none => ks = []
  | some ⟨false, c⟩ => Open c ks
  | some ⟨true, _⟩ => Word ks

/-- The invariant. -/
structure Spoken (v : List Flags) (said : List (Ref × Kind)) : Prop where
  kinds : ∀ r, Stands (kindsOf said r) v[r]?
  /-- OPEN frames come in the order of the streams. -/
  opens : ((said.filter fun e => e.2 = .kindOpen).map Prod.fst).Pairwise (· < ·)
  known : ∀ e ∈ said, e.1 < v.length

theorem spoken_nil : Spoken [] [] where
  kinds := by intro r; rfl
  opens := List.Pairwise.nil
  known := by intro e he; cases he

theorem Stands.word {ks : List Kind} {o : Option Flags} (h : Stands ks o) : Word ks := by
  cases o with
  | none => exact .inl h
  | some a =>
      obtain ⟨fin, c⟩ := a
      cases fin with
      | false => exact Open.word h
      | true => exact h

/-- A frame that is no OPEN, on a stream that has not finished. -/
theorem Spoken.speak {v : List Flags} {said : List (Ref × Kind)} {r : Ref} {c : Bool} {k : Kind}
    {a : Flags} (h : Spoken v said) (hr : v[r]? = some ⟨false, c⟩) (hk : k ≠ .kindOpen)
    (hstands : ∀ ks, Open c ks → Stands (ks ++ [k]) (some a)) :
    Spoken (v.set r a) (said ++ [(r, k)]) where
  kinds := by
    intro q
    by_cases hq : q = r
    · subst hq
      have hlt : q < v.length := (List.getElem?_eq_some_iff.1 hr).1
      have hq := h.kinds q
      rw [hr] at hq
      rw [List.getElem?_set_self hlt, kindsOf_append, kindsOf_self]
      exact hstands _ hq
    · rw [List.getElem?_set_ne (Ne.symm hq), kindsOf_append, kindsOf_ne hq, List.append_nil]
      exact h.kinds q
  opens := by
    rw [List.filter_append, List.filter_cons_of_neg (by simpa using hk), List.filter_nil,
      List.append_nil]
    exact h.opens
  known := by
    intro e he
    rw [List.length_set]
    rcases List.mem_append.1 he with he | he
    · exact h.known e he
    · rw [List.mem_singleton.1 he]
      exact (List.getElem?_eq_some_iff.1 hr).1

/-- One more stream. -/
theorem Spoken.add {v : List Flags} {said : List (Ref × Kind)} (h : Spoken v said) {a : Flags}
    {l : List Kind} (hstands : Stands l (some a)) (hl : l = [] ∨ l = [.kindOpen]) :
    Spoken (v ++ [a]) (said ++ l.map fun k => (v.length, k)) where
  kinds := by
    intro q
    rcases Nat.lt_trichotomy q v.length with hq | rfl | hq
    · have hne : kindsOf (l.map fun k => (v.length, k)) q = [] := by
        simp [kindsOf, List.filter_map, Function.comp_def, hq.ne']
      rw [List.getElem?_append_left hq, kindsOf_append, hne, List.append_nil]
      exact h.kinds q
    · have hold : kindsOf said v.length = [] := by
        have hs := h.kinds v.length
        rwa [List.getElem?_eq_none le_rfl] at hs
      have hnew : kindsOf (l.map fun k => (v.length, k)) v.length = l := by
        simp [kindsOf, List.filter_map, Function.comp_def]
      rw [kindsOf_append, hold, hnew, List.nil_append, List.getElem?_append_right le_rfl,
        Nat.sub_self]
      exact hstands
    · have hold : kindsOf said q = [] := by
        have hs := h.kinds q
        rwa [List.getElem?_eq_none hq.le] at hs
      have hne : kindsOf (l.map fun k => (v.length, k)) q = [] := by
        simp [kindsOf, List.filter_map, Function.comp_def, hq.ne]
      rw [kindsOf_append, hold, hne, List.getElem?_eq_none (by
        rw [List.length_append, List.length_singleton]
        omega)]
      rfl
  opens := by
    rw [List.filter_append, List.map_append, List.pairwise_append]
    refine ⟨h.opens, ?_, ?_⟩
    · rcases hl with rfl | rfl
      · exact List.Pairwise.nil
      · exact List.pairwise_singleton _ _
    · intro q hq q' hq'
      obtain ⟨e, he, rfl⟩ := List.mem_map.1 hq
      obtain ⟨e', he', rfl⟩ := List.mem_map.1 hq'
      obtain ⟨k, -, rfl⟩ := List.mem_map.1 (List.mem_of_mem_filter he')
      exact h.known e (List.mem_of_mem_filter he)
  known := by
    intro e he
    rw [List.length_append, List.length_singleton]
    rcases List.mem_append.1 he with he | he
    · exact Nat.lt_succ_of_lt (h.known e he)
    · obtain ⟨k, -, rfl⟩ := List.mem_map.1 he
      exact Nat.lt_succ_self _

/-- **A conversation keeps to the grammar.** -/
theorem Spoken.talk {v v' : List Flags} {a : List (Ref × Kind)} (ht : Talk hush fresh v a v') :
    ∀ {said : List (Ref × Kind)}, Spoken v said → Spoken v' (said ++ a) := by
  induction ht with
  | trans _ _ ih ih' =>
      intro said h
      rw [← List.append_assoc]
      exact ih' (ih h)
  | settle hlen hset =>
      intro said h
      rename_i v v'
      rw [List.append_nil]
      refine ⟨fun r => ?_, h.opens, fun e he => hlen ▸ h.known e he⟩
      have hs := h.kinds r
      by_cases hr : r < v.length
      · have hr' : r < v'.length := hlen ▸ hr
        rw [List.getElem?_eq_getElem hr'] at *
        rcases hset r _ _ (List.getElem?_eq_getElem hr) (List.getElem?_eq_getElem hr') with
          he | ⟨he, -⟩
        · rw [List.getElem?_eq_getElem hr, ← he] at hs
          exact hs
        · cases hv : v'[r] with
          | mk fin c =>
              rw [hv] at he
              obtain rfl : fin = true := he
              exact hs.word
      · rw [List.getElem?_eq_none (not_lt.1 hr)] at hs
        rw [List.getElem?_eq_none (hlen ▸ not_lt.1 hr)]
        exact hs
  | opens _ =>
      intro said h
      exact h.add (l := [.kindOpen]) ⟨[], rfl, by simp, rfl⟩ (.inr rfl)
  | stillborn c _ =>
      intro said h
      exact h.add (l := []) (.inl rfl) (.inl rfl)
  | message hr hk =>
      intro said h
      obtain ⟨hlt, hget⟩ := List.getElem?_eq_some_iff.1 hr
      have hset := h.speak hr (by rcases hk with rfl | rfl <;> decide)
        (a := ⟨false, _⟩) fun ks hks => hks.message hk
      rwa [← hget, List.set_getElem_self] at hset
  | halfClose hr =>
      intro said h
      exact h.speak hr (by decide) fun ks hks => hks.halfClose
  | reset hr =>
      intro said h
      exact h.speak hr (by decide) fun ks hks => hks.reset

/-! ## The methods -/

def flagsOf (s : StreamImpl) : Flags := ⟨s.finished, s.sendClosed⟩

def flags (m : Mux) : List Flags := m.objs.map flagsOf

/-- What the grammar looks at. -/
def wire (f : Frame) : UInt32 × Kind := (f.streamId, f.kind)

/-- The streams of a mux have the odd ids. -/
def onWire (e : Ref × Kind) : UInt32 × Kind := (UInt32.ofNat (2 * e.1 + 1), e.2)

/-- From `m` to `m'` the frames `fs` were accepted, and this was a conversation. -/
def Utters (hush fresh : Ref → Prop) (m : Mux) (fs : List Frame) (m' : Mux) : Prop :=
  ∃ said, Talk hush fresh (flags m) said (flags m') ∧ fs.map wire = said.map onWire

/-- A mux that is gone has let go of all its streams. -/
def Silenced (hush : Ref → Prop) (m : Mux) : Prop := m.defunct = true → ∀ r, hush r

variable {size : Frame → ℕ} {m m' m'' : Mux} {fs fs' L : List Frame} {r : Ref}
  {s s' : StreamImpl} {f : Frame}

theorem Utters.refl (m : Mux) : Utters hush fresh m [] m := ⟨[], .refl _, rfl⟩

theorem Utters.trans (h : Utters hush fresh m fs m') (h' : Utters hush fresh m' fs' m'') :
    Utters hush fresh m (fs ++ fs') m'' := by
  obtain ⟨a, ha, hfs⟩ := h
  obtain ⟨b, hb, hfs'⟩ := h'
  exact ⟨a ++ b, ha.trans hb, by rw [List.map_append, List.map_append, hfs, hfs']⟩

theorem flags_getElem? (hs : m.objs[r]? = some s) : (flags m)[r]? = some (flagsOf s) := by
  rw [flags, List.getElem?_map, hs]
  rfl

theorem flags_setObj (m : Mux) (r : Ref) (s' : StreamImpl) :
    flags (m.setObj r s') = (flags m).set r (flagsOf s') :=
  List.map_set

/-- Nothing is written, and streams may finish. -/
theorem utters_settled (hlen : m'.objs.length = m.objs.length)
    (h : ∀ (r : Ref) (s s' : StreamImpl), m.objs[r]? = some s → m'.objs[r]? = some s' →
      Rests (hush r) (flagsOf s) (flagsOf s')) : Utters hush fresh m [] m' := by
  refine ⟨[], .settle (by simpa [flags] using hlen) ?_, rfl⟩
  intro r a b ha hb
  rw [flags, List.getElem?_map, Option.map_eq_some_iff] at ha hb
  obtain ⟨s, hs, rfl⟩ := ha
  obtain ⟨s', hs', rfl⟩ := hb
  exact h r s s' hs hs'

theorem utters_setObj (hs : m.objs[r]? = some s)
    (h : Rests (hush r) (flagsOf s) (flagsOf s')) : Utters hush fresh m [] (m.setObj r s') := by
  refine utters_settled (by simp [Mux.setObj]) fun q t t' ht ht' => ?_
  obtain ⟨rfl, rfl⟩ | ⟨-, ht'⟩ := Mux.of_getElem?_setObj hs ht'
  · obtain rfl : s = t := Option.some.inj (hs.symm.trans ht)
    exact h
  · obtain rfl : t = t' := Option.some.inj (ht.symm.trans ht')
    exact .inl rfl

theorem utters_markDefunct (hwf : m.WF) (err : WsStatusError) (c d : Bool)
    (hcd : (c || d) = true)
    (hlost : Silenced hush ({ m with closed := c, dead := d }.markDefunct err)) :
    Utters hush fresh m [] ({ m with closed := c, dead := d }.markDefunct err) := by
  refine utters_settled (m.length_markDefunct err) fun r s s' hs hs' => ?_
  obtain ⟨-, -, -, hfin⟩ := hwf.markDefunct_finished err hs'
  exact .inr ⟨hfin, .inr (hlost hcd r)⟩

/-- A write is accepted, or it fails the mux. -/
theorem write_cases (hd : m.defunct = false) (f : Frame) :
    (m.takes size f = [f] ∧ (m.writeFrame size f).1.objs = m.objs) ∨
      (m.takes size f = [] ∧ (m.writeFrame size f).1 = m.fail preopenOverflow) := by
  unfold Mux.takes Mux.writeFrame
  rw [hd]
  simp only [Bool.false_eq_true, if_false]
  split_ifs
  · exact .inl ⟨rfl, rfl⟩
  · exact .inr ⟨rfl, rfl⟩
  · exact .inl ⟨rfl, rfl⟩

/-- **A stream that has not finished writes a frame**, its flags being `flagsOf s'` then. -/
theorem utters_write (hwf : m.WF) (hs : m.objs[r]? = some s) (hlive : s.finished = false)
    (hid : s'.id = s.id) (hf : f.streamId = s.id)
    (htalk : ∀ v : List Flags, v[r]? = some (flagsOf s) →
      Talk hush fresh v [(r, f.kind)] (v.set r (flagsOf s')))
    (hlost : Silenced hush ((m.setObj r s').writeFrame size f).1) :
    Utters hush fresh m ((m.setObj r s').takes size f) ((m.setObj r s').writeFrame size f).1 := by
  have hset : (m.setObj r s').WF := hwf.setObj hs hid fun h => by rw [hlive] at h; cases h
  have hd : (m.setObj r s').defunct = false := hwf.not_defunct hs hlive
  rcases write_cases hd f with ⟨htakes, hobjs⟩ | ⟨htakes, hfail⟩
  · rw [htakes]
    refine ⟨[(r, f.kind)], ?_, ?_⟩
    · have hflags : flags ((m.setObj r s').writeFrame size f).1 = (flags m).set r (flagsOf s') := by
        rw [flags, hobjs]
        exact flags_setObj m r s'
      rw [hflags]
      exact htalk _ (flags_getElem? hs)
    · rw [List.map_singleton, List.map_singleton, wire, onWire, hf, hwf.ids r s hs]
  · -- the buffer has overflowed, and every stream has finished
    rw [hfail] at hlost
    rw [htakes, hfail]
    refine utters_settled ?_ fun q t t' ht ht' => ?_
    · exact ((m.setObj r s').length_markDefunct preopenOverflow).trans (by simp [Mux.setObj])
    · obtain ⟨-, -, -, hfin⟩ := hset.markDefunct_finished preopenOverflow ht'
      exact .inr ⟨hfin, .inr (hlost rfl q)⟩

/-- A message or a WINDOW_UPDATE, which leave the flags alone. -/
theorem utters_emit (hwf : m.WF) (hs : m.objs[r]? = some s) (hlive : s.finished = false)
    (hid : s'.id = s.id) (hflags : flagsOf s' = flagsOf s) (hf : f.streamId = s.id)
    (hk : f.kind = .kindMsg ∨ f.kind = .kindWindowUpdate)
    (hlost : Silenced hush ((m.setObj r s').writeFrame size f).1) :
    Utters hush fresh m ((m.setObj r s').takes size f) ((m.setObj r s').writeFrame size f).1 := by
  refine utters_write hwf hs hlive hid hf (fun v hv => ?_) hlost
  obtain ⟨hlt, hget⟩ := List.getElem?_eq_some_iff.1 hv
  rw [hflags, ← hget, List.set_getElem_self]
  rw [flagsOf, hlive] at hv
  exact .message hv hk

theorem shift_flags {payload : Payload} (h : s.shift = some (payload, s')) :
    flagsOf s' = flagsOf s := by
  unfold StreamImpl.shift at h
  split at h
  · cases h
  · obtain ⟨-, h⟩ := Option.ite_none_right_eq_some.1 h
    cases h
    rfl

theorem resume_flags {y : StreamImpl × Option ℤ} (h : s.resume = some y) :
    flagsOf y.1 = flagsOf s := by
  cases hr : s.inbound.settled[s.resumed]? with
  | none => simp [StreamImpl.resume, hr] at h
  | some v =>
      obtain ⟨c, d, hres⟩ := StreamImpl.resume_spec hr
      rw [hres] at h
      cases h
      rfl

theorem touch_flags {m₀ : Mux} {a : Act} (h : Touch m₀ a r s s') : flagsOf s' = flagsOf s := by
  cases h with
  | resume _ hy => exact resume_flags hy
  | _ => rfl

theorem utters_speaks (hwf : m.WF) (hs : m.objs[r]? = some s) (hlive : s.finished = false)
    {a : Act} (h : Speaks a r s f s') (hlost : Silenced hush ((m.setObj r s').writeFrame size f).1) :
    Utters hush fresh m ((m.setObj r s').takes size f) ((m.setObj r s').writeFrame size f).1 := by
  have hid := h.id
  cases h with
  | msg hsh => exact utters_emit hwf hs hlive hid (shift_flags hsh) rfl (.inl rfl) hlost
  | update _ hy => exact utters_emit hwf hs hlive hid (resume_flags hy) rfl (.inr rfl) hlost
  | halfClose _ hclosed =>
      refine utters_write hwf hs hlive rfl rfl (fun v hv => ?_) hlost
      rw [flagsOf, hlive, hclosed] at hv
      rw [flagsOf, hlive]
      exact .halfClose hv

/-- `cancel` and `abort`. -/
theorem utters_abort (hwf : m.WF) (r : Ref) (err : Option WsStatusError)
    (hlost : Silenced hush (m.abort size r err).1) :
    Utters hush fresh m (m.abortLog size r) (m.abort size r err).1 := by
  rcases abort_cases size hwf r err with ⟨-, heq, hlog⟩ | ⟨s, m₁, hs, hlive, rfl, hstop, heq, hlog⟩
  · rw [heq, hlog]
    exact .refl m
  · rw [heq] at hlost
    rw [heq, hlog]
    have hrst : Utters hush fresh m ((m.setObj r s.stop).takes size s.rstFrame)
        ((m.setObj r s.stop).writeFrame size s.rstFrame).1 := by
      refine utters_write hwf hs hlive rfl rfl (fun v hv => ?_) hlost
      rw [flagsOf, hlive] at hv
      exact .reset hv
    -- the stream leaves the registry and settles
    have hsettle : Utters hush fresh ((m.setObj r s.stop).writeFrame size s.rstFrame).1 []
        ((((m.setObj r s.stop).writeFrame size s.rstFrame).1.delete s.id).setObj r
          (s.stop.settle err)) :=
      utters_setObj hstop (.inr ⟨(s.stop.settle_follows err).finished rfl, .inl rfl⟩)
    have hall := hrst.trans hsettle
    rwa [List.append_nil] at hall

theorem flags_append (objs : List StreamImpl) (s : StreamImpl) :
    (objs ++ [s]).map flagsOf = objs.map flagsOf ++ [flagsOf s] := by
  rw [List.map_append, List.map_singleton]

/-- `openStream`: OPEN is written, or the stream has finished without it. -/
theorem utters_openStream (h : Sound size m L) (hb : m.nextId < 2 ^ 32) (method : Text)
    (headers : Headers) (hlost : Silenced hush (m.openStream size method headers).1)
    (hfresh : fresh m.objs.length) :
    Utters hush fresh m (m.takes size (m.openFrame method headers))
      (m.openStream size method headers).1 := by
  by_cases hd : m.defunct = true
  · obtain ⟨-, hfin⟩ := (newStreamImpl (UInt32.ofNat m.nextId) m.initialWindow
      m.maxSendBuffer).endError_follows (m.terminalError.getD connectionLost) ∅
    unfold Mux.openStream at hlost ⊢
    dsimp only at hlost ⊢
    rw [if_pos hd] at hlost
    rw [if_pos hd, Mux.takes, if_pos hd]
    refine ⟨[], ?_, rfl⟩
    show Talk hush fresh (flags m) [] ((m.objs ++ [_]).map flagsOf)
    rw [flags_append, flagsOf, hfin]
    exact .stillborn _ (hlost hd _)
  · rw [openStream_live hd] at hlost ⊢
    have hwf := h.books.wf.enlist hd hb
    have hlive : m.defunct = false := Bool.eq_false_iff.2 hd
    have hlen : (flags m).length = m.objs.length := List.length_map _
    have htakes : m.enlist.takes size (m.openFrame method headers) =
        m.takes size (m.openFrame method headers) := rfl
    rw [← htakes]
    rcases write_cases (m := m.enlist) hlive (m.openFrame method headers) with
      ⟨htakes, hobjs⟩ | ⟨htakes, hfail⟩
    · rw [htakes]
      refine ⟨[((flags m).length, .kindOpen)], ?_, ?_⟩
      · have hflags : flags (m.enlist.writeFrame size (m.openFrame method headers)).1 =
            flags m ++ [⟨false, false⟩] := by
          rw [flags, hobjs, Mux.enlist, flags_append]
          rfl
        rw [hflags]
        exact .opens (hlen ▸ hfresh)
      · rw [List.map_singleton, List.map_singleton, onWire, hlen, ← h.books.wf.next]
        rfl
    · rw [hfail] at hlost
      rw [htakes, hfail]
      have hborn : Talk hush fresh (flags m) [] (flags m ++ [⟨true, false⟩]) :=
        .stillborn false (hlost rfl _)
      refine ⟨[], hborn.trans (.settle ?_ ?_), rfl⟩
      · rw [flags, List.length_map, Mux.fail, Mux.length_markDefunct, Mux.enlist,
          List.length_append, List.length_append, hlen]
        rfl
      · intro r a b _ hb
        rw [flags, List.getElem?_map, Option.map_eq_some_iff] at hb
        obtain ⟨t, ht, rfl⟩ := hb
        obtain ⟨-, -, -, hfin⟩ := hwf.markDefunct_finished preopenOverflow ht
        exact .inr ⟨hfin, .inr (hlost rfl r)⟩

/-- The streams a frame ends: END and RST do. -/
def tells (f : Frame) (r : Ref) : Prop :=
  (f.kind = .kindEnd ∨ f.kind = .kindRst) ∧ f.streamId = UInt32.ofNat (2 * r + 1)

theorem utters_ended (hwf : m.WF) (hk : f.kind = .kindEnd ∨ f.kind = .kindRst)
    (hhush : ∀ r, tells f r → hush r) : Utters hush fresh m [] (m.endWith f (ending f)) := by
  unfold Mux.endWith
  cases hfind : m.find f.streamId with
  | none => exact .refl m
  | some y =>
      obtain ⟨r, s⟩ := y
      obtain ⟨-, hs, hid⟩ := hwf.find_eq_some hfind
      exact utters_setObj hs (.inr ⟨(ending_follows f s).2,
        .inr (hhush r ⟨hk, hid ▸ hwf.ids r s hs⟩)⟩)

/-- The frame an event brings. -/
def inbound : Act → Option Frame
  | .message _ f => f
  | _ => none

/-- The stream a call may start. -/
def starts (m : Mux) : Act → Ref → Prop
  | .openStream _ _ _, r => r = m.objs.length
  | _, _ => False

/-- A mux that is gone stays gone. -/
theorem turn_defunct {m₀ : Mux} {a : Act} (hwf : m.WF) (ht : Turn size m₀ a m fs m')
    (hd : m.defunct = true) : m'.defunct = true := by
  have hgone : ∀ {q : Ref} {u : StreamImpl}, m.objs[q]? = some u → u.finished ≠ false := by
    intro q u hu hlive
    rw [hwf.not_defunct hu hlive] at hd
    cases hd
  cases ht with
  | set | leave | flush => exact hd
  | write hs hlive _ => exact absurd hlive (hgone hs)
  | abort _ _ =>
      rcases abort_cases size hwf _ _ with ⟨-, heq, -⟩ | ⟨s, m₁, hs, hlive, -⟩
      · rw [heq]
        exact hd
      · exact absurd hlive (hgone hs)
  | ended _ _ =>
      unfold Mux.endWith
      split <;> exact hd
  | opens _ _ =>
      unfold Mux.openStream
      dsimp only
      rw [if_pos hd]
      exact hd
  | fails hcd _ => exact hcd

/-- **Every move is a conversation.** -/
theorem utters_turn {m₀ : Mux} {a : Act} (h : Sound size m L) (ht : Turn size m₀ a m fs m')
    (hlost : Silenced hush m') (hhush : ∀ f ∈ inbound a, ∀ r, tells f r → hush r)
    (hfresh : ∀ r, starts m₀ a r → fresh r) : Utters hush fresh m fs m' := by
  have hwf := h.books.wf
  cases ht with
  | set hs htouch => exact utters_setObj hs (.inl (touch_flags htouch))
  | write hs hlive hspeaks => exact utters_speaks hwf hs hlive hspeaks hlost
  | abort _ _ => exact utters_abort hwf _ _ hlost
  | leave | flush => exact .refl m
  | ended ha hk =>
      subst ha
      exact utters_ended hwf hk (hhush _ rfl)
  | opens ha hb =>
      subst ha
      exact utters_openStream h hb _ _ hlost (hfresh _ rfl)
  | fails hcd _ => exact utters_markDefunct hwf _ _ _ hcd hlost

/-- **Every method is a conversation**, in which a stream finishes in silence only with the
mux or by a frame that ends it, and only `openStream` starts one. -/
theorem utters_call (h : Sound size m L) {a : Act} {y : Mux × Option WsStatusError}
    (hy : call size m a = some y) :
    Utters (fun r => y.1.defunct = true ∨ ∃ f ∈ inbound a, tells f r) (starts m a) m
      (log size m a) y.1 := by
  have hkept := (sound_kept size m a).and (Q := fun m' L' => ∃ fs, L' = L ++ fs ∧
    (Silenced (fun r => y.1.defunct = true ∨ ∃ f ∈ inbound a, tells f r) m' →
      Utters (fun r => y.1.defunct = true ∨ ∃ f ∈ inbound a, tells f r) (starts m a) m fs m'))
    fun {m₁ m₂ _ fs₂} hsound hq ht => by
      obtain ⟨fs₁, rfl, hutters⟩ := hq
      refine ⟨fs₁ ++ fs₂, List.append_assoc _ _ _, fun hlost => ?_⟩
      have hfirst := hutters fun hd => hlost (turn_defunct hsound.books.wf ht hd)
      exact hfirst.trans (utters_turn hsound ht hlost (fun f hf r hr => .inr ⟨f, hf, hr⟩)
        fun _ hr => hr)
  obtain ⟨-, -, fs, hfs, hutters⟩ := hkept.call ⟨h, [], by simp, fun _ => .refl m⟩ hy
  rw [List.append_cancel_left hfs]
  exact hutters fun hd _ => .inl hd

/-! ## Every run -/

/-- The frames accepted so far keep to the grammar. -/
structure Grammatical (size : Frame → ℕ) (x : Session) : Prop where
  sound : Sound size x.mux x.accepted
  spoken : ∃ said, Spoken (flags x.mux) said ∧ x.accepted.map wire = said.map onWire

theorem grammatical_start (size : Frame → ℕ) (W B F : ℤ) (ready : Bool) (got : Option Text) :
    Grammatical size (Session.start W B F ready got) := by
  refine ⟨sound_start size W B F ready got, [], ?_, rfl⟩
  have hnil : flags (Session.start W B F ready got).mux = [] := by
    unfold Session.start Mux.new
    dsimp only
    split
    · split <;> rfl
    · rfl
  rw [hnil]
  exact spoken_nil

theorem Grammatical.step {x x' : Session} {a : Act} (h : Grammatical size x)
    (hs : x.step size a = some x') : Grammatical size x' := by
  obtain ⟨y, hy, rfl⟩ := Option.map_eq_some_iff.1 hs
  obtain ⟨said, hsp, hwire⟩ := h.spoken
  obtain ⟨new, htalk, hnew⟩ := utters_call h.sound hy
  refine ⟨(h.sound.call hy).2, said ++ new, hsp.talk htalk, ?_⟩
  show (x.accepted ++ log size x.mux a).map wire = _
  rw [List.map_append, List.map_append, hwire, hnew]

/-- A reader of the socket that has taken some of what was accepted takes the next frame. -/
theorem Grammatical.next {x : Session} (h : Grammatical size x) {taken : List Frame}
    (htaken : taken <+: x.accepted) (hf : x.mux.sent[taken.length]? = some f) :
    taken ++ [f] <+: x.mux.sent := by
  obtain ⟨hlt, rfl⟩ := List.getElem?_eq_some_iff.1 hf
  exact List.concat_get_prefix
    (List.prefix_of_prefix_length_le htaken h.sound.books.part hlt.le) hlt

/-- The kinds of the frames of a stream. -/
def kindsFor (id : UInt32) (l : List Frame) : List Kind :=
  (l.filter fun f => f.streamId = id).map Frame.kind

theorem kindsFor_append (id : UInt32) (l l' : List Frame) :
    kindsFor id (l ++ l') = kindsFor id l ++ kindsFor id l' := by
  rw [kindsFor, List.filter_append, List.map_append]
  rfl

theorem mem_kindsFor {id : UInt32} {l : List Frame} {k : Kind} :
    k ∈ kindsFor id l ↔ ∃ f ∈ l, f.streamId = id ∧ f.kind = k := by
  simp only [kindsFor, List.mem_map, List.mem_filter, decide_eq_true_eq, and_assoc]

theorem kindsFor_eq {l : List Frame} {said : List (Ref × Kind)} (id : UInt32)
    (h : l.map wire = said.map onWire) :
    kindsFor id l = (said.filter fun e => UInt32.ofNat (2 * e.1 + 1) = id).map Prod.snd := by
  have hl : kindsFor id l = ((l.map wire).filter fun e => e.1 = id).map Prod.snd := by
    rw [List.filter_map, List.map_map]
    rfl
  rw [hl, h, List.filter_map, List.map_map]
  rfl

theorem toNat_ofNat_odd {n : ℕ} (hn : 2 * n ≤ 2 ^ 32) {q : ℕ} (hq : q < n) :
    (UInt32.ofNat (2 * q + 1)).toNat = 2 * q + 1 := by
  rw [UInt32.toNat_ofNat', Nat.mod_eq_of_lt (by omega)]

/-- Ids belong to one stream each. -/
theorem ofNat_odd_inj {n : ℕ} (hn : 2 * n ≤ 2 ^ 32) {q q' : ℕ} (hq : q < n) (hq' : q' < n)
    (h : UInt32.ofNat (2 * q + 1) = UInt32.ofNat (2 * q' + 1)) : q = q' := by
  have hnat := congrArg UInt32.toNat h
  rw [toNat_ofNat_odd hn hq, toNat_ofNat_odd hn hq'] at hnat
  omega

/-- The frames of a stream are what was said on it. -/
theorem kindsFor_stream {x : Session} (hwf : x.mux.WF) {said : List (Ref × Kind)}
    (hsp : Spoken (flags x.mux) said) (hwire : x.accepted.map wire = said.map onWire) {q : Ref}
    (hq : q < x.mux.objs.length) :
    kindsFor (UInt32.ofNat (2 * q + 1)) x.accepted = kindsOf said q := by
  rw [kindsFor_eq _ hwire, kindsOf]
  congr 1
  refine List.filter_congr fun e he => ?_
  have hlt : e.1 < x.mux.objs.length := by
    have := hsp.known e he
    rwa [flags, List.length_map] at this
  rw [decide_eq_decide]
  exact ⟨ofNat_odd_inj hwf.bound hlt hq, fun h => by rw [h]⟩

theorem Grammatical.word {x : Session} (h : Grammatical size x) (id : UInt32) :
    Word (kindsFor id x.accepted) := by
  obtain ⟨said, hsp, hwire⟩ := h.spoken
  by_cases hid : ∃ q, q < x.mux.objs.length ∧ UInt32.ofNat (2 * q + 1) = id
  · obtain ⟨q, hq, rfl⟩ := hid
    rw [kindsFor_stream h.sound.books.wf hsp hwire hq]
    exact (hsp.kinds q).word
  · left
    rw [kindsFor_eq id hwire, List.map_eq_nil_iff, List.filter_eq_nil_iff]
    intro e he heq
    have hlt := hsp.known e he
    rw [flags, List.length_map] at hlt
    exact hid ⟨e.1, hlt, by simpa using heq⟩

/-- The ids of the OPEN frames that were accepted. -/
def openIds (l : List Frame) : List ℕ :=
  (l.filter fun f => f.kind = .kindOpen).map fun f => f.streamId.toNat

theorem Grammatical.opens {x : Session} (h : Grammatical size x) :
    (openIds x.accepted).Pairwise (· < ·) ∧ ∀ n ∈ openIds x.accepted, n % 2 = 1 := by
  obtain ⟨said, hsp, hwire⟩ := h.spoken
  -- the ids of the streams are the odd numbers below `2 ^ 32`
  have hids : openIds x.accepted =
      ((said.filter fun e => e.2 = .kindOpen).map Prod.fst).map fun q => 2 * q + 1 := by
    have hl : openIds x.accepted =
        ((x.accepted.map wire).filter fun e => e.2 = .kindOpen).map fun e => e.1.toNat := by
      rw [openIds, List.filter_map, List.map_map]
      rfl
    rw [hl, hwire, List.filter_map, List.map_map, List.map_map]
    refine List.map_congr_left fun e he => ?_
    have hlt := hsp.known e (List.mem_of_mem_filter he)
    rw [flags, List.length_map] at hlt
    exact toNat_ofNat_odd h.sound.books.wf.bound hlt
  rw [hids, List.pairwise_map]
  refine ⟨hsp.opens.imp fun {q q' : ℕ} (hlt : q < q') => by omega, fun n hn => ?_⟩
  obtain ⟨q, -, rfl⟩ := List.mem_map.1 hn
  omega

/-- **The wire grammar of the client.**  In every state that any sequence of calls and socket
events reaches: for each id, the frames that were accepted, and those that have reached the
socket, are the beginning of a word of the grammar; the ids of the OPEN frames are odd and
grow; and a stream that has not finished has written its OPEN, no RST, and a HALF_CLOSE
exactly if it is closed for sending. -/
theorem wire_grammar (size : Frame → ℕ) (W B F : ℤ) (ready : Bool) (got : Option Text)
    {x : Session} (h : Reach (Session.step size) Always (Session.start W B F ready got) x) :
    (∀ id, Word (kindsFor id x.accepted) ∧ Word (kindsFor id x.mux.sent)) ∧
      ((openIds x.accepted).Pairwise (· < ·) ∧ ∀ n ∈ openIds x.accepted, n % 2 = 1) ∧
      ∀ (r : Ref) (s : StreamImpl), x.mux.objs[r]? = some s → s.finished = false →
        Open s.sendClosed (kindsFor s.id x.accepted) := by
  have hx : Grammatical size x :=
    h.invariant (grammatical_start size W B F ready got) fun _ _ _ hx _ hs => hx.step hs
  obtain ⟨said, hsp, hwire⟩ := hx.spoken
  have hwf := hx.sound.books.wf
  refine ⟨fun id => ⟨hx.word id, ?_⟩, ?_, ?_⟩
  · refine (hx.word id).of_initial ?_
    exact (hx.sound.books.part.filter _).map _
  · exact hx.opens
  · intro r s hs hlive
    have hr : r < x.mux.objs.length := (List.getElem?_eq_some_iff.1 hs).1
    have hstands := hsp.kinds r
    rw [flags_getElem? hs, flagsOf, hlive] at hstands
    rw [hwf.ids r s hs, kindsFor_stream hwf hsp hwire hr]
    exact hstands

/-- A stream is half-closed and then cancelled before the socket opens, another is opened. -/
theorem wire_grammar_cancelled :
    ∃ x, Reach (Session.step fun _ => 9) Always (Session.start 0 0 0 false none) x ∧
      kindsFor 1 x.accepted = [.kindOpen, .kindMsg, .kindHalfClose, .kindRst] ∧
      kindsFor 3 x.mux.sent = [.kindOpen] ∧ Word (kindsFor 1 x.accepted) := by
  obtain ⟨x, hx, hp⟩ := exists_reach_of_exec (Session.step fun _ => 9) Always
    (Session.start 0 0 0 false none)
    (fun x : Session => decide (kindsFor 1 x.accepted =
      [.kindOpen, .kindMsg, .kindHalfClose, .kindRst] ∧ kindsFor 3 x.mux.sent = [.kindOpen]))
    [.openStream .empty ∅ none, .send 0 [1], .closeSend 0, .openStream .empty ∅ none,
      .abort 0 none, .onopen none] (by decide)
  obtain ⟨hone, hthree⟩ := of_decide_eq_true hp
  exact ⟨x, hx, hone, hthree, ((wire_grammar (fun _ => 9) 0 0 0 false none hx).1 1).1⟩

end WsProto.Ts.WireGrammar
