import WsProto.Go.Grammar
import WsProto.Go.Bridge.Agree

/-!
# Metadata set by several calls

gRPC merges what repeated `SetHeader`, `SendHeader` and `SetTrailer` calls set: the
values of a key are those of all the calls, in order (`metadata.Join`).  On the wire the
values of a key are one text, and the bridge flattens each map where it is given.  So
it matters whether the maps are joined first, or flattened first and merged as maps of
texts, where a later key wins.

* `lookup_joinAll` — the values of a key after `metadata.Join`;
* `lookup_mergeAll` — the text of a key after flattening and merging: that of the last
  call that has it;
* `join_eq_join_append_iff` — the two texts are the same exactly if nothing but the last
  call has values for the key, or the one value is the empty text;
* `metadata_merged_iff` — HEADER and END of a unary RPC and of a streaming one carry the
  joined metadata exactly if every key is set so, and all texts are UTF-8;
* `repeated_header_loses_value` — two unary `SetHeader` calls with one key: the first
  value is lost, where the streaming path has both.
-/

namespace WsProto.Go.Bridge

open Serve

/-! ## The calls -/

/-- A call that sets metadata.  A unary method may give headers to `SetHeader` or to
`SendHeader`; a streaming method that has not answered yet uses `SetHeader`. -/
inductive MdCall where
  | header (send : Bool) (md : MD)
  | trailer (md : MD)

namespace MdCall

/-- The call of a unary method. -/
def unary : MdCall → UnaryCall
  | .header true md => .sendHeader md
  | .header false md => .setHeader md
  | .trailer md => .setTrailer md

/-- The call of a streaming method. -/
def stream {Res : Type} : MdCall → Call Res
  | .header _ md => .setHeader md
  | .trailer md => .setTrailer md

/-- The metadata for HEADER. -/
def header? : MdCall → Option MD
  | .header _ md => some md
  | .trailer _ => none

/-- The metadata for END. -/
def trailer? : MdCall → Option MD
  | .header _ _ => none
  | .trailer md => some md

end MdCall

section Methods

variable {Req Res : Type}

/-- A unary method that makes the calls and answers. -/
def settingUnary (calls : List MdCall) (res : Res) : UnaryImpl Req Res :=
  fun _ => calls.foldr (fun c d => .call c.unary fun _ => d) (.done (.ok res))

/-- A streaming method that makes the calls, answers with a message and returns what
`SendMsg` returned. -/
def settingStream (calls : List MdCall) (res : Res) : StreamImpl Req Res :=
  calls.foldr (fun c d => .call c.stream fun _ => d) (.call (.sendMsg res) fun err => .done err)

end Methods

/-- `metadata.Join(md_1, …, md_n)`. -/
def joinAll (mds : List MD) : MD := mds.foldl appendMD ∅

/-- Each map flattened and merged into the map of texts, later keys first. -/
def mergeAll (m : Option Headers) (mds : List MD) : Option Headers :=
  mds.foldl (fun m md => mergeInto m ((flattenMD md).getD ∅)) m

/-! ## The values of a key -/

/-- The values the maps have for a key, one after the other. -/
def valuesOf (k : Text) (mds : List MD) : List Text := mds.flatMap fun md => (md.lookup k).getD []

/-- The text of some values. -/
def textOf (vs : List Text) : Text := Utf8.join ",".toUTF8 vs

/-- What the last map that has the key has for it. -/
def lastOf (k : Text) (mds : List MD) : Option (List Text) :=
  mds.foldl (fun vs md => (md.lookup k).or vs) none

@[simp] theorem valuesOf_append (k : Text) (mds mds' : List MD) :
    valuesOf k (mds ++ mds') = valuesOf k mds ++ valuesOf k mds' := by
  simp [valuesOf]

@[simp] theorem valuesOf_singleton (k : Text) (md : MD) :
    valuesOf k [md] = (md.lookup k).getD [] := by
  simp [valuesOf]

theorem valuesOf_eq_nil {k : Text} {mds : List MD} (h : ∀ md ∈ mds, md.lookup k = none) :
    valuesOf k mds = [] := by
  rw [valuesOf, List.flatMap_eq_nil_iff]
  intro md hmd
  rw [h md hmd]
  rfl

theorem lastOf_concat (k : Text) (mds : List MD) (md : MD) :
    lastOf k (mds ++ [md]) = (md.lookup k).or (lastOf k mds) := by
  simp [lastOf]

theorem lastOf_eq_none_iff (k : Text) (mds : List MD) :
    lastOf k mds = none ↔ ∀ md ∈ mds, md.lookup k = none := by
  induction mds using List.reverseRecOn with
  | nil => simp [lastOf]
  | append_singleton mds md ih =>
      rw [lastOf_concat, Option.or_eq_none_iff, ih, List.forall_mem_append,
        List.forall_mem_singleton, and_comm]

theorem lookup_flattenMD (k : Text) (md : MD) :
    ((flattenMD md).getD ∅).lookup k = (md.lookup k).map textOf := by
  unfold flattenMD
  split
  · rename_i hnil
    have hnone : md.lookup k = none := by rw [AList.lookup, hnil]; rfl
    rw [hnone]
    rfl
  · simp only [Option.getD_some, AList.lookup]
    induction md.entries with
    | nil => rfl
    | cons e rest ih =>
        obtain ⟨k', vs⟩ := e
        by_cases hk : k = k'
        · subst hk
          rw [List.map_cons, List.dlookup_cons_eq, List.dlookup_cons_eq]
          rfl
        · rw [List.map_cons, List.dlookup_cons_ne _ _ hk, List.dlookup_cons_ne _ _ hk]
          exact ih

theorem lookup_mergeInto (k : Text) (m : Option Headers) (md : Headers) :
    ((mergeInto m md).getD ∅).lookup k = (md.lookup k).or ((m.getD ∅).lookup k) := by
  unfold mergeInto
  split
  · rename_i hnil
    have hnone : md.lookup k = none := by rw [AList.lookup, hnil]; rfl
    rw [hnone, Option.none_or]
  · exact lookup_foldl_insert k md.entries md.nodupKeys _

/-- **Flattened first, the last call that has a key wins.** -/
theorem lookup_mergeAll (k : Text) (mds : List MD) :
    ((mergeAll none mds).getD ∅).lookup k = (lastOf k mds).map textOf := by
  induction mds using List.reverseRecOn with
  | nil => rfl
  | append_singleton mds md ih =>
      rw [mergeAll, List.foldl_append, List.foldl_cons, List.foldl_nil, lookup_mergeInto,
        lookup_flattenMD, lastOf_concat]
      rw [mergeAll] at ih
      rw [ih]
      cases md.lookup k <;> rfl

theorem lookup_foldr_append (k : Text) (l : List ((_ : Text) × List Text)) (hl : l.NodupKeys)
    (out : MD) :
    (l.foldr (fun e out => out.insert e.1 ((out.lookup e.1).getD [] ++ e.2)) out).lookup k =
      (l.dlookup k).elim (out.lookup k) fun vs => some ((out.lookup k).getD [] ++ vs) := by
  induction l with
  | nil => rfl
  | cons e rest ih =>
      obtain ⟨k', vs⟩ := e
      rw [List.nodupKeys_cons] at hl
      have hrest := ih hl.2
      rw [List.foldr_cons]
      by_cases hk : k = k'
      · -- the key is not in the rest, so that its values are still those of `out`
        subst hk
        rw [List.dlookup_eq_none.2 hl.1] at hrest
        rw [AList.lookup_insert, hrest, List.dlookup_cons_eq]
        rfl
      · rw [AList.lookup_insert_ne hk, hrest, List.dlookup_cons_ne _ _ hk]

/-- **Joined first, a key has the values of all the calls.** -/
theorem lookup_joinAll (k : Text) (mds : List MD) :
    (joinAll mds).lookup k = (lastOf k mds).map fun _ => valuesOf k mds := by
  induction mds using List.reverseRecOn with
  | nil => rfl
  | append_singleton mds md ih =>
      have happend : joinAll (mds ++ [md]) = appendMD (joinAll mds) md := by
        rw [joinAll, List.foldl_append]
        rfl
      rw [happend, appendMD, lookup_foldr_append k _ md.nodupKeys, lastOf_concat, ih,
        show md.entries.dlookup k = md.lookup k from rfl, valuesOf_append]
      cases hmd : md.lookup k with
      | none => simp [hmd]
      | some vs =>
          cases hlast : lastOf k mds with
          | none => simp [hmd, valuesOf_eq_nil ((lastOf_eq_none_iff k mds).1 hlast)]
          | some us => simp [hmd]

/-! ## When the two texts agree -/

/-- The call that sets a key last has all its values: no call before it has one, unless
there is just one, the empty text, and the last has none. -/
def SetOnce (mds : List MD) : Prop :=
  ∀ k before md after vs, mds = before ++ md :: after → md.lookup k = some vs →
    (∀ md' ∈ after, md'.lookup k = none) →
      valuesOf k before = [] ∨ valuesOf k before = [.empty] ∧ vs = []

theorem lastOf_append (k : Text) (mds mds' : List MD) :
    lastOf k (mds ++ mds') = (lastOf k mds').or (lastOf k mds) := by
  induction mds' using List.reverseRecOn with
  | nil => simp [lastOf]
  | append_singleton mds' md ih =>
      rw [← List.append_assoc, lastOf_concat, lastOf_concat, ih, Option.or_assoc]

/-- The last call that has the key. -/
theorem lastOf_eq_some_iff (k : Text) (mds : List MD) (vs : List Text) :
    lastOf k mds = some vs ↔ ∃ before md after, mds = before ++ md :: after ∧
      md.lookup k = some vs ∧ ∀ md' ∈ after, md'.lookup k = none := by
  constructor
  · induction mds using List.reverseRecOn with
    | nil => intro h; cases h
    | append_singleton mds md ih =>
        intro h
        rw [lastOf_concat] at h
        cases hmd : md.lookup k with
        | some us =>
            rw [hmd, Option.some_or] at h
            exact ⟨mds, md, [], rfl, hmd.trans h, by simp⟩
        | none =>
            rw [hmd, Option.none_or] at h
            obtain ⟨before, md', after, rfl, hmd', hafter⟩ := ih h
            refine ⟨before, md', after ++ [md], by simp, hmd', ?_⟩
            rw [List.forall_mem_append, List.forall_mem_singleton]
            exact ⟨hafter, hmd⟩
  · rintro ⟨before, md, after, rfl, hmd, hafter⟩
    have hcons : lastOf k (md :: after) = some vs := by
      rw [← List.singleton_append, lastOf_append, (lastOf_eq_none_iff k after).2 hafter,
        Option.none_or]
      simpa [lastOf] using hmd
    rw [lastOf_append, hcons, Option.some_or]

/-- **Merging texts is joining values exactly if every key is set once.** -/
theorem merged_eq_joined_iff (mds : List MD) :
    (∀ k, (lastOf k mds).map textOf = ((joinAll mds).lookup k).map textOf) ↔ SetOnce mds := by
  have hsep : 0 < (",".toUTF8).size := by decide
  -- the values of a key up to the last call that has it
  have hvalues : ∀ {k before md after vs}, md.lookup k = some vs →
      (∀ md' ∈ after, md'.lookup k = none) →
        valuesOf k (before ++ md :: after) = valuesOf k before ++ vs := by
    intro k before md after vs hmd hafter
    rw [valuesOf_append, ← List.singleton_append, valuesOf_append, valuesOf_singleton, hmd,
      valuesOf_eq_nil hafter, List.append_nil]
    rfl
  constructor
  · intro h k before md after vs hmds hmd hafter
    have hk := h k
    rw [lookup_joinAll, (lastOf_eq_some_iff k mds vs).2 ⟨before, md, after, hmds, hmd, hafter⟩, hmds,
      hvalues hmd hafter] at hk
    exact (Utf8.join_eq_join_append_iff hsep _ _).1 (Option.some.inj hk)
  · intro h k
    rw [lookup_joinAll]
    cases hlast : lastOf k mds with
    | none => rfl
    | some vs =>
        obtain ⟨before, md, after, rfl, hmd, hafter⟩ := (lastOf_eq_some_iff k mds vs).1 hlast
        rw [hvalues hmd hafter]
        exact congrArg some ((Utf8.join_eq_join_append_iff hsep _ _).2
          (h k before md after vs rfl hmd hafter))

/-! ## Maps on the wire -/

/-- Two maps with the same text for every key. -/
def SameMap (m m' : Headers) : Prop := ∀ k, m.lookup k = m'.lookup k

/-- The map of HEADER: none at all is the empty map. -/
def wireHeader (sock : List Frame) : Headers :=
  ((sock.find? fun f => f.kind = .kindHeader).bind Frame.headers).getD ∅

/-- The map of END. -/
def wireTrailers (sock : List Frame) : Headers :=
  ((sock.find? fun f => f.kind = .kindEnd).bind Frame.headers).getD ∅

/-- What gRPC specifies: the metadata of all the calls, joined and then flattened. -/
def merged (mds : List MD) : Headers := (flattenMD (joinAll mds)).getD ∅

theorem wireHeader_frames (id : UInt32) (r : Reply) :
    wireHeader ((r.frames id).filter fun f => f.Utf8) = ((readHeader r.header).join).getD ∅ := by
  rw [wireHeader, ← List.head?_filter, filter_frames, filter_kind]
  cases readHeader r.header <;> simp [headerFrame]

theorem wireTrailers_frames (id : UInt32) (r : Reply) :
    wireTrailers ((r.frames id).filter fun f => f.Utf8) =
      ((readEnd r.status r.trailers).bind (·.2)).getD ∅ := by
  rw [wireTrailers, ← List.head?_filter, filter_frames, filter_kind]
  cases readEnd r.status r.trailers <;> simp [endFrame]

theorem lookup_merged (k : Text) (mds : List MD) :
    (merged mds).lookup k = ((joinAll mds).lookup k).map textOf :=
  lookup_flattenMD k (joinAll mds)

theorem Headers.utf8_iff_lookup (m : Headers) :
    m.Utf8 ↔ ∀ k v, m.lookup k = some v → k.IsValidUTF8 ∧ v.IsValidUTF8 := by
  constructor
  · intro h k v hk
    exact h ⟨k, v⟩ (AList.mem_lookup_iff.1 hk)
  · rintro h ⟨k, v⟩ he
    exact h k v (AList.mem_lookup_iff.2 he)

theorem SameMap.utf8 {m m' : Headers} (h : SameMap m m') : m.Utf8 ↔ m'.Utf8 := by
  simp only [Headers.utf8_iff_lookup, h _]

/-- A map that does not reach the socket when its texts are not UTF-8 is what it should be
exactly if it is before the socket, and its texts are UTF-8. -/
theorem sameMap_readable_iff {h : Option Headers} {m : Headers}
    (hkeys : ∀ k, (h.getD ∅).lookup k = none → m.lookup k = none)
    (hkeys' : ∀ k, m.lookup k = none → (h.getD ∅).lookup k = none) :
    SameMap ((if Readable h then h else none).getD ∅) m ↔ SameMap (h.getD ∅) m ∧ m.Utf8 := by
  have hread : Readable h ↔ (h.getD ∅).Utf8 := by
    cases h with
    | none => simp [Readable, Headers.Utf8]
    | some t => simp [Readable]
  by_cases hh : Readable h
  · rw [if_pos hh]
    exact ⟨fun hs => ⟨hs, hs.utf8.1 (hread.1 hh)⟩, And.left⟩
  · rw [if_neg hh]
    constructor
    · -- then there is nothing in the map, and nothing is UTF-8
      intro hs
      refine absurd (hread.2 ((Headers.utf8_iff_lookup _).2 fun k v hk => ?_)) hh
      rw [hkeys' k (hs k).symm] at hk
      cases hk
    · rintro ⟨hs, hm⟩
      exact absurd (hread.2 (hs.utf8.2 hm)) hh

/-- A map that was merged from flattened ones, against the joined one. -/
theorem sameMap_mergeAll_iff (mds : List MD) {h : Option Headers}
    (hh : ∀ k, (h.getD ∅).lookup k = ((mergeAll none mds).getD ∅).lookup k) :
    SameMap ((if Readable h then h else none).getD ∅) (merged mds) ↔
      SetOnce mds ∧ (merged mds).Utf8 := by
  have hlookup : ∀ k, (h.getD ∅).lookup k = (lastOf k mds).map textOf := fun k =>
    (hh k).trans (lookup_mergeAll k mds)
  have hmerged : ∀ k, (merged mds).lookup k = none ↔ lastOf k mds = none := fun k => by
    rw [lookup_merged, lookup_joinAll, Option.map_eq_none_iff, Option.map_eq_none_iff]
  rw [sameMap_readable_iff, ← merged_eq_joined_iff]
  · simp only [SameMap, hlookup, lookup_merged]
  · intro k hk
    rwa [hmerged, ← Option.map_eq_none_iff, ← hlookup k]
  · intro k hk
    rw [hmerged] at hk
    rw [hlookup, hk]
    rfl

theorem textOf_utf8 (vs : List Text) : (textOf vs).IsValidUTF8 ↔ ∀ v ∈ vs, v.IsValidUTF8 :=
  Utf8.join_iff (String.isValidUTF8 ",") (by decide) (by decide) vs

theorem MD.utf8_iff_lookup (md : MD) :
    md.Utf8 ↔ ∀ k vs, md.lookup k = some vs → k.IsValidUTF8 ∧ ∀ v ∈ vs, v.IsValidUTF8 := by
  constructor
  · intro h k vs hk
    exact h ⟨k, vs⟩ (AList.mem_lookup_iff.1 hk)
  · rintro h ⟨k, vs⟩ he
    exact h k vs (AList.mem_lookup_iff.2 he)

/-- Joining neither repairs nor spoils a text. -/
theorem merged_utf8_iff (mds : List MD) : (merged mds).Utf8 ↔ ∀ md ∈ mds, MD.Utf8 md := by
  simp only [Headers.utf8_iff_lookup, MD.utf8_iff_lookup, lookup_merged, lookup_joinAll]
  constructor
  · intro h md hmd k vs hk
    obtain ⟨us, hlast⟩ : ∃ us, lastOf k mds = some us := by
      rw [← Option.ne_none_iff_exists', Ne, lastOf_eq_none_iff]
      intro hnone
      rw [hnone md hmd] at hk
      cases hk
    obtain ⟨hkey, htext⟩ := h k (textOf (valuesOf k mds)) (by rw [hlast]; rfl)
    refine ⟨hkey, fun v hv => (textOf_utf8 _).1 htext v ?_⟩
    exact List.mem_flatMap.2 ⟨md, hmd, by rw [hk]; exact hv⟩
  · intro h k v hk
    cases hlast : lastOf k mds with
    | none => rw [hlast] at hk; cases hk
    | some us =>
        rw [hlast] at hk
        obtain rfl := Option.some.inj hk
        obtain ⟨before, md, after, rfl, hmd, -⟩ := (lastOf_eq_some_iff k mds us).1 hlast
        refine ⟨(h md (by simp) k us hmd).1, (textOf_utf8 _).2 fun v hv => ?_⟩
        obtain ⟨md', hmd', hv⟩ := List.mem_flatMap.1 hv
        cases hvs : md'.lookup k with
        | none => rw [hvs] at hv; cases hv
        | some vs => rw [hvs] at hv; exact (h md' hmd' k vs hvs).2 v hv

/-! ## The unary path -/

section Paths

variable {Req Res : Type} (lib : Library Req Res)

/-- The sink after the calls. -/
theorem run_settingUnary (calls : List MdCall) (res : Res) (req : Req) (s : MdSink) :
    (settingUnary calls res req).run transportStream s =
      ({ header := mergeAll s.header (calls.filterMap MdCall.header?)
         trailer := mergeAll s.trailer (calls.filterMap MdCall.trailer?) }, .ok res) := by
  induction calls generalizing s with
  | nil => rfl
  | cons c calls ih =>
      have hrun : (settingUnary (c :: calls) res req).run transportStream s =
          (settingUnary calls res req).run transportStream (transportStream c.unary s).1 := rfl
      rw [hrun, ih]
      cases c with
      | header send md => cases send <;> rfl
      | trailer md => rfl

theorem getD_filter_entries (h : Option Headers) :
    (h.filter fun h => h.entries ≠ []).getD ∅ = h.getD ∅ := by
  cases h with
  | none => rfl
  | some h =>
      by_cases hnil : h.entries = []
      · simp only [Option.filter_some, hnil, Option.getD_some]
        exact AList.ext hnil.symm
      · simp [Option.filter_some, hnil]

/-- **A unary RPC**: HEADER and END carry the joined metadata exactly if every key is set
once and all texts are UTF-8. -/
theorem unary_merged_iff (calls : List MdCall) {res : Res} {out : Payload}
    (hres : lib.marshal res = .ok out) (cfg : BridgeConfig) {x : Rpc} (hx : Fresh x)
    {raw : Payload} {req : Req} (hreq : lib.unmarshal raw = .ok req) :
    (SameMap (wireHeader (finish lib (registrarAnswer lib cfg (settingUnary calls res) x raw)))
        (merged (calls.filterMap MdCall.header?)) ↔
      SetOnce (calls.filterMap MdCall.header?) ∧ (merged (calls.filterMap MdCall.header?)).Utf8) ∧
    (SameMap (wireTrailers (finish lib (registrarAnswer lib cfg (settingUnary calls res) x raw)))
        (merged (calls.filterMap MdCall.trailer?)) ↔
      SetOnce (calls.filterMap MdCall.trailer?) ∧
        (merged (calls.filterMap MdCall.trailer?)).Utf8) := by
  have hhandler : unaryHandler cfg.unary (settingUnary calls res) (.ok req) =
      settingUnary calls res req := by
    simp [unaryHandler, passThrough]
  have hvalid : (statusOf none).message.IsValidUTF8 := by
    simp [statusOf, fromError, ByteArray.isValidUTF8_empty]
  rw [finish_registrarAnswer lib cfg _ raw hx, hreq, hhandler, run_settingUnary]
  simp only [registrarReply, Except.bind, hres, wireHeader_frames, wireTrailers_frames]
  constructor
  · rw [← sameMap_mergeAll_iff _ (h := (mergeAll none (calls.filterMap MdCall.header?)).filter
      fun h => h.entries ≠ []) fun k => by rw [getD_filter_entries]]
    simp only [metadataReply, MdSink.takeHeader, readHeader]
    generalize (mergeAll none (calls.filterMap MdCall.header?)).filter _ = h
    cases h with
    | none => simp
    | some h => by_cases hr : Readable (some h) <;> simp [hr, Option.filter_some]
  · rw [← sameMap_mergeAll_iff _ (h := mergeInto none
      (((mergeAll none (calls.filterMap MdCall.trailer?)).filter fun h => h.entries ≠ []).getD ∅))
      fun k => by rw [getD_filter_entries, lookup_mergeInto]; simp]
    simp only [metadataReply, MdSink.takeTrailer, readEnd, hvalid, and_true]
    generalize mergeInto none _ = t
    by_cases hr : Readable t <;> simp [hr]

/-! ## The streaming path -/

theorem calls_settingStream (calls : List MdCall) (res : Res) (x : GrpcServerStream) :
    (settingStream calls res : StreamImpl Req Res).calls (GrpcServerStream.service lib) x =
      calls.map MdCall.stream ++ [.sendMsg res] := by
  induction calls generalizing x with
  | nil => rfl
  | cons c calls ih => exact congrArg (c.stream :: ·) (ih _)

theorem run_settingStream (calls : List MdCall) {res : Res} {out : Payload}
    (hres : lib.marshal res = .ok out) (x : GrpcServerStream) :
    ((settingStream calls res : StreamImpl Req Res).run (GrpcServerStream.service lib) x).2 = none := by
  induction calls generalizing x with
  | nil =>
      show (x.sendMsg lib res).2 = none
      rw [GrpcServerStream.sendMsg, hres]
      exact (grown_sendRaw lib _ out).2.2
  | cons c calls ih =>
      exact ih (GrpcServerStream.service lib c.stream x).1

/-- The headers that are pending when the message comes. -/
theorem flushed_setting (calls : List MdCall) {res : Res} {out : Payload}
    (hres : lib.marshal res = .ok out) (pending : Option MD) :
    (flushed lib pending (calls.map MdCall.stream ++ [.sendMsg res])).join =
      flattenMD ((calls.filterMap MdCall.header?).foldl appendMD (pending.getD ∅)) := by
  induction calls generalizing pending with
  | nil =>
      cases pending with
      | none => simp [flushed, hres]; rfl
      | some md => rfl
  | cons c calls ih =>
      cases c with
      | header send md =>
          rw [List.map_cons, List.cons_append, MdCall.stream, flushed, join_eq]
          exact ih (some (appendMD (pending.getD ∅) md))
      | trailer md => exact ih pending

theorem trailersOf_setting (calls : List MdCall) (res : Res) (t : Option Headers) :
    trailersOf t (calls.map MdCall.stream ++ [.sendMsg res]) =
      mergeAll t (calls.filterMap MdCall.trailer?) := by
  induction calls generalizing t with
  | nil => rfl
  | cons c calls ih =>
      cases c with
      | header send md => exact ih t
      | trailer md => exact ih _

/-- **A streaming RPC**: HEADER always carries the joined metadata, if its texts are
UTF-8; END does so under the same condition as that of a unary RPC. -/
theorem stream_merged_iff (calls : List MdCall) {res : Res} {out : Payload}
    (hres : lib.marshal res = .ok out) (cfg : BridgeConfig) {x : Rpc} (hx : Fresh x) :
    (SameMap (wireHeader (finish lib (registrarStream lib cfg (settingStream calls res) x)))
        (merged (calls.filterMap MdCall.header?)) ↔
      (merged (calls.filterMap MdCall.header?)).Utf8) ∧
    (SameMap (wireTrailers (finish lib (registrarStream lib cfg (settingStream calls res) x)))
        (merged (calls.filterMap MdCall.trailer?)) ↔
      SetOnce (calls.filterMap MdCall.trailer?) ∧
        (merged (calls.filterMap MdCall.trailer?)).Utf8) := by
  have hvalid : (statusOf none).message.IsValidUTF8 := by
    simp [statusOf, fromError, ByteArray.isValidUTF8_empty]
  rw [finish_registrarStream lib cfg _ hx, calls_settingStream, run_settingStream lib calls hres]
  simp only [wireHeader_frames, wireTrailers_frames, streamReply]
  constructor
  · have hflat : (flushed lib none (calls.map MdCall.stream ++ [.sendMsg res])).join =
        flattenMD (joinAll (calls.filterMap MdCall.header?)) := flushed_setting lib calls hres none
    have hread : (readHeader (flushed lib none (calls.map MdCall.stream ++ [.sendMsg res]))).join =
        if Readable (flattenMD (joinAll (calls.filterMap MdCall.header?))) then
          flattenMD (joinAll (calls.filterMap MdCall.header?)) else none := by
      rw [← hflat, readHeader]
      cases flushed lib none (calls.map MdCall.stream ++ [.sendMsg res]) with
      | none => simp
      | some md => by_cases hr : Readable md <;> simp [Option.filter_some, hr]
    rw [hread, sameMap_readable_iff (m := merged (calls.filterMap MdCall.header?)) (fun _ h => h)
      (fun _ h => h)]
    exact and_iff_right fun k => rfl
  · rw [trailersOf_setting, ← sameMap_mergeAll_iff _ fun k => rfl, readEnd]
    generalize mergeAll none _ = t
    by_cases hr : Readable t <;> simp [hr, hvalid]

/-- **Metadata is merged as gRPC specifies exactly if no key is set twice.**  For every
sequence of calls that set headers and trailers before the first message, the maps on the
wire of the unary path and of the streaming path are all the flattened join of what was
set, if and only if each key's values come from one call, for headers and for trailers,
and all texts are UTF-8. -/
theorem metadata_merged_iff (cfg : BridgeConfig) (calls : List MdCall) (id : UInt32)
    (method : Text) (window : ℤ) (inbox : List Payload) (fin : GoError) {raw : Payload} {req : Req}
    (hreq : lib.unmarshal raw = .ok req) {res : Res} {out : Payload}
    (hres : lib.marshal res = .ok out) :
    (SameMap (wireHeader (finish lib (registrar lib cfg (.unary (settingUnary calls res))
          (accepted id method window (raw :: inbox) fin))))
        (merged (calls.filterMap MdCall.header?)) ∧
      SameMap (wireHeader (finish lib (registrar lib cfg (.bidi (settingStream calls res))
          (accepted id method window inbox fin))))
        (merged (calls.filterMap MdCall.header?)) ∧
      SameMap (wireTrailers (finish lib (registrar lib cfg (.unary (settingUnary calls res))
          (accepted id method window (raw :: inbox) fin))))
        (merged (calls.filterMap MdCall.trailer?)) ∧
      SameMap (wireTrailers (finish lib (registrar lib cfg (.bidi (settingStream calls res))
          (accepted id method window inbox fin))))
        (merged (calls.filterMap MdCall.trailer?))) ↔
      SetOnce (calls.filterMap MdCall.header?) ∧ SetOnce (calls.filterMap MdCall.trailer?) ∧
        (∀ md ∈ calls.filterMap MdCall.header?, MD.Utf8 md) ∧
        ∀ md ∈ calls.filterMap MdCall.trailer?, MD.Utf8 md := by
  have hregistrar : registrar lib cfg (.unary (settingUnary calls res))
      (accepted id method window (raw :: inbox) fin) =
        registrarAnswer lib cfg (settingUnary calls res) (accepted id method window inbox fin) raw :=
    rfl
  have hfresh := fresh_accepted id method window inbox fin
  obtain ⟨huh, hut⟩ := unary_merged_iff lib calls hres cfg hfresh hreq
  obtain ⟨hsh, hst⟩ := stream_merged_iff lib calls hres cfg hfresh
  rw [hregistrar, registrar, huh, hsh, hut, hst, merged_utf8_iff, merged_utf8_iff]
  constructor
  · rintro ⟨⟨hh, hhu⟩, -, ⟨ht, htu⟩, -⟩
    exact ⟨hh, ht, hhu, htu⟩
  · rintro ⟨hh, ht, hhu, htu⟩
    exact ⟨⟨hh, hhu⟩, hhu, ⟨ht, htu⟩, ht, htu⟩

end Paths

/-- The key of `someMD` with another value. -/
def otherMD : MD := AList.insert "k".toUTF8 ["w".toUTF8] ∅

/-- Calls that set no key twice; the trailer has two values. -/
def tidyCalls : List MdCall :=
  [.header false someMD, .trailer (AList.insert "t".toUTF8 ["a".toUTF8, "b".toUTF8] ∅)]

theorem setOnce_singleton (md : MD) : SetOnce [md] := by
  intro k before md' after vs h _ _
  cases before with
  | nil => exact Or.inl rfl
  | cons b before => simp at h

/-- A header, and a trailer with two values, each set by one call. -/
theorem metadata_merged_iff_tidy :
    wireTrailers (finish plain (registrar plain {} (.unary (settingUnary tidyCalls [1]))
        (accepted 1 .empty 4 [[]] .eof))) = AList.insert "t".toUTF8 "a,b".toUTF8 ∅ ∧
      SameMap (wireHeader (finish plain (registrar plain {} (.unary (settingUnary tidyCalls [1]))
        (accepted 1 .empty 4 [[]] .eof)))) (merged [someMD]) := by
  refine ⟨rfl, ?_⟩
  refine ((metadata_merged_iff plain {} tidyCalls 1 .empty 4 [] .eof rfl rfl).2
    ⟨setOnce_singleton _, setOnce_singleton _, ?_, ?_⟩).1
  · simp only [tidyCalls, List.filterMap, MdCall.header?, List.forall_mem_singleton]
    rintro ⟨k, vs⟩ he
    obtain ⟨rfl, rfl⟩ : k = "k".toUTF8 ∧ vs = ["v".toUTF8] := by simpa [someMD] using he
    decide
  · simp only [tidyCalls, List.filterMap, MdCall.trailer?, List.forall_mem_singleton]
    rintro ⟨k, vs⟩ he
    obtain ⟨rfl, rfl⟩ : k = "t".toUTF8 ∧ vs = ["a".toUTF8, "b".toUTF8] := by simpa using he
    decide

/-- Headers and trailers, each set by two calls with the same key. -/
def repeatedCalls : List MdCall :=
  [.header false someMD, .header false otherMD, .trailer someMD, .trailer otherMD]

/-- **A value is lost.**  Two calls set the key `k`.  HEADER of a unary RPC has the second
value only, HEADER of a streaming RPC has both; END has the second only on both paths. -/
theorem repeated_header_loses_value :
    (wireHeader (finish plain (registrar plain {} (.unary (settingUnary repeatedCalls [1]))
        (accepted 1 .empty 4 [[]] .eof)))).lookup "k".toUTF8 = some "w".toUTF8 ∧
      (wireHeader (finish plain (registrar plain {} (.bidi (settingStream repeatedCalls [1]))
        (accepted 1 .empty 4 [] .eof)))).lookup "k".toUTF8 = some "v,w".toUTF8 ∧
      (wireTrailers (finish plain (registrar plain {} (.unary (settingUnary repeatedCalls [1]))
        (accepted 1 .empty 4 [[]] .eof)))).lookup "k".toUTF8 = some "w".toUTF8 ∧
      (wireTrailers (finish plain (registrar plain {} (.bidi (settingStream repeatedCalls [1]))
        (accepted 1 .empty 4 [] .eof)))).lookup "k".toUTF8 = some "w".toUTF8 ∧
      (merged [someMD, otherMD]).lookup "k".toUTF8 = some "v,w".toUTF8 :=
  ⟨rfl, rfl, rfl, rfl, rfl⟩

end WsProto.Go.Bridge
