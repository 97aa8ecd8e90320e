import WsProto.Lib.JsNumber
import WsProto.Wire

/-!
# The deadline of a call, from either client to the server

A client that has a deadline writes the time that is left, in milliseconds, as the
decimal header `ws-timeout-ms` of OPEN; `route` on the server reads it back and derives
the context of the stream from it.  The Go client prints an `int64` with
`strconv.FormatInt`, the TypeScript client a `Number` with `String`, and the server
multiplies the parsed `int64` by a million into a `time.Duration`.

A deadline is `Kept` when the server's timeout is positive and within one millisecond
of the client's.

* `kept_withTimeout_iff` — the multiplication keeps it up to the largest duration and
  no further;
* `deadline_kept_iff` — which deadlines arrive, for both clients and for any text of
  the header.
-/

namespace WsProto

/-- `timeoutHeader`. -/
def timeoutHeader : Text := "ws-timeout-ms".toUTF8

/-- The largest number of milliseconds that is a `time.Duration`. -/
def maxTimeoutMs : ℤ := 9223372036854

namespace Go

/-- `time.Millisecond`. -/
def millisecond : Int64 := 1000000

/-- `time.Duration.Milliseconds`. -/
def milliseconds (d : Int64) : Int64 := d / 1000000

/-- `strconv.FormatInt(n, 10)`. -/
def formatInt (n : Int64) : Text :=
  ⟨(if n < 0 then '-'.toUInt8 :: Decimal.format n.toInt.natAbs
    else Decimal.format n.toInt.natAbs).toArray⟩

/-- The bounds of an `int64` around a numeral and its sign. -/
def signed (neg : Bool) (n : ℕ) : Option Int64 :=
  if neg then if n ≤ 2 ^ 63 then some (Int64.ofInt (-n)) else none
  else if n < 2 ^ 63 then some (Int64.ofInt n) else none

/-- `strconv.ParseInt(v, 10, 64)`. -/
def parseInt (v : Text) : Option Int64 :=
  match v.data.toList with
  | [] => none
  | b :: l =>
      if b = '+'.toUInt8 then (Decimal.parse l).bind (signed false)
      else if b = '-'.toUInt8 then (Decimal.parse l).bind (signed true)
      else (Decimal.parse (b :: l)).bind (signed false)

/-- The headers of OPEN that `newClientStream` sends: `remaining` is the time until
the deadline of the caller's context, if it has one. -/
def openHeaders (headers : Option Headers) (remaining : Option Int64) : Option Headers :=
  match remaining with
  | none => headers
  | some d =>
      if 0 < milliseconds d then
        some ((headers.getD ∅).insert timeoutHeader (formatInt (milliseconds d)))
      else headers

/-- The timeout `route` derives the context of a new stream with; `none` inherits the
context of the mux. -/
def streamTimeout (headers : Option Headers) : Option Int64 :=
  let v := ((headers.getD ∅).lookup timeoutHeader).getD .empty
  if v = .empty then none
  else
    match parseInt v with
    | none => none
    | some ms => if 0 < ms then some (ms * millisecond) else none

end Go

/-- The headers of OPEN that `openStream` of the TypeScript client sends. -/
def Ts.openHeaders (headers : Headers) (timeoutMs : Option JsNumber) : Headers :=
  match timeoutMs with
  | none => headers
  | some x => headers.insert timeoutHeader ⟨x.toBytes.toArray⟩

/-- The server's timeout is positive and within a millisecond of the requested time,
both in nanoseconds. -/
def Kept (requested : ℚ) (timeout : Option Int64) : Prop :=
  ∃ t, timeout = some t ∧ 0 < t.toInt ∧ |(t.toInt : ℚ) - requested| ≤ 10 ^ 6

namespace Go

/-! ## Durations -/

theorem toInt_milliseconds (d : Int64) : (milliseconds d).toInt = d.toInt.tdiv 1000000 :=
  Int64.toInt_div_of_ne_right d 1000000 (by decide)

/-- Up to the largest duration the product does not wrap. -/
theorem toInt_mul_millisecond {ms : Int64} (hpos : 0 < ms.toInt) (hle : ms.toInt ≤ maxTimeoutMs) :
    (ms * millisecond).toInt = ms.toInt * 1000000 := by
  rw [maxTimeoutMs] at hle
  rw [Int64.toInt_mul, show millisecond.toInt = 1000000 from rfl]
  apply Int.bmod_eq_of_le_mul_two
  · push_cast
    omega
  · push_cast
    omega

/-- A product that is near its factors' product in the integers is that product: the
other residues are further away than any two durations. -/
theorem le_maxTimeoutMs {ms : Int64}
    (hnear : |(ms * millisecond).toInt - ms.toInt * 10 ^ 6| ≤ 10 ^ 6) :
    ms.toInt ≤ maxTimeoutMs := by
  have hlt := Int64.toInt_lt (ms * millisecond)
  have hdvd : (2 ^ 64 : ℤ) ∣ ms.toInt * 1000000 - (ms * millisecond).toInt := by
    rw [Int64.toInt_mul, show millisecond.toInt = 1000000 from rfl]
    exact_mod_cast Int.dvd_self_sub_bmod
  obtain ⟨k, hk⟩ := hdvd
  rw [abs_le] at hnear
  rw [maxTimeoutMs]
  omega

/-- **The multiplication keeps a deadline up to the largest duration and no
further**: one millisecond later the product is negative. -/
theorem kept_withTimeout_iff {ms : Int64} (hpos : 0 < ms.toInt) :
    Kept (ms.toInt * 10 ^ 6) (some (ms * millisecond)) ↔ ms.toInt ≤ maxTimeoutMs := by
  constructor
  · rintro ⟨t, ht, -, hnear⟩
    obtain rfl := Option.some.inj ht
    apply le_maxTimeoutMs
    exact_mod_cast hnear
  · intro hle
    refine ⟨_, rfl, ?_, ?_⟩
    · rw [toInt_mul_millisecond hpos hle]
      omega
    · rw [toInt_mul_millisecond hpos hle]
      push_cast
      norm_num

/-! ## The header -/

/-- The timeout of a header that reads as a positive number. -/
theorem streamTimeout_of_parseInt {h : Option Headers} {v : Text} {ms : Int64}
    (hv : (h.getD ∅).lookup timeoutHeader = some v) (hp : parseInt v = some ms) (hms : 0 < ms) :
    streamTimeout h = some (ms * millisecond) := by
  have hne : v ≠ .empty := by
    rintro rfl
    cases hp
  simp only [streamTimeout, hv, Option.getD_some, if_neg hne, hp, if_pos hms]

/-- A timeout is a positive number that the header reads as. -/
theorem exists_of_streamTimeout {h : Option Headers} {v : Text} {t : Int64}
    (hv : (h.getD ∅).lookup timeoutHeader = some v) (ht : streamTimeout h = some t) :
    ∃ ms, parseInt v = some ms ∧ 0 < ms ∧ t = ms * millisecond := by
  simp only [streamTimeout, hv, Option.getD_some] at ht
  split at ht
  · cases ht
  · split at ht
    · cases ht
    · split at ht
      · exact ⟨_, by assumption, by assumption, (Option.some.inj ht).symm⟩
      · cases ht

/-- A text that begins with a digit has no sign. -/
theorem parseInt_of_isDigit {b : UInt8} {l : List UInt8} (hb : Decimal.isDigit b = true) :
    parseInt ⟨(b :: l).toArray⟩ = (Decimal.parse (b :: l)).bind (signed false) := by
  have hplus : b ≠ '+'.toUInt8 := by
    rintro rfl
    cases hb
  have hminus : b ≠ '-'.toUInt8 := by
    rintro rfl
    cases hb
  simp only [parseInt, if_neg hplus, if_neg hminus]

theorem signed_false_eq_some {n : ℕ} {ms : Int64} :
    signed false n = some ms ↔ n < 2 ^ 63 ∧ ms.toInt = n := by
  rw [signed, if_neg (by decide)]
  constructor
  · intro h
    split at h
    · rename_i hn
      rw [← Option.some.inj h]
      exact ⟨hn, Int64.toInt_ofInt_of_le (by omega) (by omega)⟩
    · cases h
  · rintro ⟨hn, hms⟩
    rw [if_pos hn, ← hms, Int64.ofInt_toInt]

/-- A positive `int64` is read back. -/
theorem parseInt_formatInt {ms : Int64} (hms : 0 < ms.toInt) : parseInt (formatInt ms) = some ms := by
  obtain ⟨b, l, hbl⟩ := List.exists_cons_of_ne_nil (Decimal.format_ne_nil ms.toInt.natAbs)
  have hb : Decimal.isDigit b = true :=
    Decimal.isDigit_of_mem_format (n := ms.toInt.natAbs) (hbl ▸ List.mem_cons_self)
  have hneg : ¬ ms < 0 := by
    rw [Int64.lt_iff_toInt_lt]
    exact not_lt.2 hms.le
  have hlt := Int64.toInt_lt ms
  rw [formatInt, if_neg hneg, hbl, parseInt_of_isDigit hb, ← hbl, Decimal.parse_format,
    Option.bind_some, signed_false_eq_some]
  omega

end Go

open Go

/-! ## The two clients -/

theorem lt_iff_toInt {ms : Int64} : 0 < ms ↔ 0 < ms.toInt := Int64.lt_iff_toInt_lt

/-- The Go client rounds down to the millisecond, and the largest duration is no
obstacle to it. -/
theorem kept_openHeaders_of_le {h : Option Headers} {d : Int64} (hd : 10 ^ 6 ≤ d.toInt) :
    Kept d.toInt (streamTimeout (Go.openHeaders h (some d))) := by
  have hlt := Int64.toInt_lt d
  have hms : (milliseconds d).toInt = d.toInt / 1000000 := by
    rw [toInt_milliseconds, Int.tdiv_eq_ediv_of_nonneg (by omega)]
  have hpos : 0 < (milliseconds d).toInt := by
    rw [hms]
    omega
  have hle : (milliseconds d).toInt ≤ maxTimeoutMs := by
    rw [hms, maxTimeoutMs]
    omega
  have hheader : streamTimeout (Go.openHeaders h (some d)) =
      some (milliseconds d * millisecond) := by
    apply streamTimeout_of_parseInt _ (parseInt_formatInt hpos) (lt_iff_toInt.2 hpos)
    simp only [Go.openHeaders, if_pos (lt_iff_toInt.2 hpos), Option.getD_some, AList.lookup_insert]
  refine ⟨_, hheader, ?_, ?_⟩
  · rw [toInt_mul_millisecond hpos hle]
    omega
  · rw [toInt_mul_millisecond hpos hle, hms]
    have hnear : |d.toInt / 1000000 * 1000000 - d.toInt| ≤ 10 ^ 6 := by
      rw [abs_le]
      omega
    exact_mod_cast hnear

/-- Less than a millisecond is not written. -/
theorem openHeaders_of_lt {h : Option Headers} {d : Int64} (hpos : 0 < d.toInt)
    (hd : d.toInt < 10 ^ 6) : Go.openHeaders h (some d) = h := by
  have hms : ¬ 0 < milliseconds d := by
    rw [lt_iff_toInt, toInt_milliseconds, Int.tdiv_eq_ediv_of_nonneg hpos.le]
    omega
  simp only [Go.openHeaders, if_neg hms]

/-- What the server reads from the text of a `Number`. -/
theorem parseInt_toBytes (x : JsNumber) :
    parseInt ⟨x.toBytes.toArray⟩ = (Decimal.parse x.toBytes).bind (signed false) := by
  obtain ⟨b, l, hbl, hb⟩ := x.head_toBytes
  rw [hbl]
  exact parseInt_of_isDigit hb

/-- The TypeScript client's deadline arrives when it is an integer, up to the largest
duration. -/
theorem kept_ts_iff {h : Headers} (x : JsNumber) :
    Kept (x.value * 10 ^ 6) (streamTimeout (some (Ts.openHeaders h (some x)))) ↔
      ∃ n : ℕ, x.value = n ∧ (n : ℤ) ≤ maxTimeoutMs := by
  have hv : (((some (Ts.openHeaders h (some x))).getD ∅).lookup timeoutHeader) =
      some ⟨x.toBytes.toArray⟩ := AList.lookup_insert _
  constructor
  · rintro ⟨t, ht, ht0, hnear⟩
    obtain ⟨ms, hp, hms, rfl⟩ := exists_of_streamTimeout hv ht
    rw [parseInt_toBytes] at hp
    obtain ⟨n, hn, hsigned⟩ := Option.bind_eq_some_iff.1 hp
    obtain ⟨hn63, hmsn⟩ := signed_false_eq_some.1 hsigned
    obtain ⟨hsmall, hlarge⟩ := x.value_of_parse_toBytes hn
    have hn53 : n < 2 ^ 53 := by
      by_contra hge
      -- a number of that size is out of reach of every duration
      have hval := hlarge (by omega)
      have hlt : (((ms * millisecond).toInt : ℤ) : ℚ) < 2 ^ 63 := by
        exact_mod_cast Int64.toInt_lt (ms * millisecond)
      have := (abs_le.1 hnear).1
      linarith
    have hval := hsmall hn53
    refine ⟨n, hval, ?_⟩
    rw [← hmsn]
    apply (kept_withTimeout_iff (lt_iff_toInt.1 hms)).1
    refine ⟨_, rfl, ht0, ?_⟩
    rw [hval] at hnear
    rw [hmsn]
    exact_mod_cast hnear
  · rintro ⟨n, hval, hle⟩
    have hn53 : n < 2 ^ 53 := by
      rw [maxTimeoutMs] at hle
      omega
    have hn0 : 0 < n := by
      have := x.pos
      rw [hval] at this
      exact_mod_cast this
    have hms : (Int64.ofInt n).toInt = n := Int64.toInt_ofInt_of_le (by omega) (by omega)
    have hp : parseInt ⟨x.toBytes.toArray⟩ = some (Int64.ofInt n) := by
      rw [parseInt_toBytes, x.parse_toBytes_of_nat hn53 hval, Option.bind_some,
        signed_false_eq_some]
      exact ⟨by omega, hms⟩
    have hpos : 0 < (Int64.ofInt n).toInt := by omega
    rw [streamTimeout_of_parseInt hv hp (lt_iff_toInt.2 hpos), hval]
    have h := (kept_withTimeout_iff hpos).2 (by rw [hms]; exact hle)
    rw [hms] at h
    exact_mod_cast h

/-! ## Which deadlines arrive -/

/-- A deadline on its way to the server. -/
inductive Request where
  /-- A Go client with the time `remaining` left, and the caller's headers. -/
  | go (headers : Option Headers) (remaining : Int64)
  /-- A TypeScript client with the option `timeoutMs`. -/
  | ts (headers : Headers) (timeoutMs : JsNumber)
  /-- Any headers that carry `ms` milliseconds. -/
  | carried (headers : Option Headers) (ms : Int64)

namespace Request

/-- The time is positive, and the headers that carry it do so. -/
def Valid : Request → Prop
  | go _ d => 0 < d.toInt
  | ts _ _ => True
  | carried h ms =>
      0 < ms.toInt ∧ ∃ v, (h.getD ∅).lookup timeoutHeader = some v ∧ parseInt v = some ms

/-- The requested time in nanoseconds. -/
def nanoseconds : Request → ℚ
  | go _ d => d.toInt
  | ts _ x => x.value * 10 ^ 6
  | carried _ ms => ms.toInt * 10 ^ 6

/-- The headers of OPEN. -/
def openHeaders : Request → Option Headers
  | go h d => Go.openHeaders h (some d)
  | ts h x => some (Ts.openHeaders h (some x))
  | carried h _ => h

/-- When the deadline arrives.  With less than a millisecond left a Go client writes no
header, and the server follows what the caller's own headers say. -/
def Arrives : Request → Prop
  | go h d => 10 ^ 6 ≤ d.toInt ∨ Kept d.toInt (streamTimeout h)
  | ts _ x => ∃ n : ℕ, x.value = n ∧ (n : ℤ) ≤ maxTimeoutMs
  | carried _ ms => ms.toInt ≤ maxTimeoutMs

end Request

/-- **Which deadlines arrive.**  The Go client's, unless less than a millisecond is
left.  The TypeScript client's, if it is a whole number of milliseconds that fits a
duration.  And of any header that reads as a positive `int64`, those that fit a
duration. -/
theorem deadline_kept_iff (r : Request) (hr : r.Valid) :
    Kept r.nanoseconds (streamTimeout r.openHeaders) ↔ r.Arrives := by
  cases r with
  | go h d =>
      by_cases hlt : d.toInt < 10 ^ 6
      · have hnone : (Request.go h d).openHeaders = h := openHeaders_of_lt hr hlt
        rw [hnone]
        constructor
        · exact Or.inr
        · rintro (hle | hkept)
          · omega
          · exact hkept
      · have hle : 10 ^ 6 ≤ d.toInt := not_lt.1 hlt
        exact iff_of_true (kept_openHeaders_of_le hle) (Or.inl hle)
  | ts h x => exact kept_ts_iff x
  | carried h ms =>
      obtain ⟨hms, v, hv, hp⟩ := hr
      have htimeout : streamTimeout (Request.carried h ms).openHeaders = some (ms * millisecond) :=
        streamTimeout_of_parseInt hv hp (lt_iff_toInt.2 hms)
      rw [htimeout]
      exact kept_withTimeout_iff hms

/-- Half a millisecond. -/
def half : JsNumber where
  value := 1 / 2
  digits := 5
  exp := -1
  isDouble := ⟨1, -1, by norm_num, by norm_num, by norm_num, by norm_num⟩
  pos := by norm_num
  reduced := by norm_num
  reads := by
    intro y _
    norm_num
  shortest := by
    intro d e _
    exact List.length_pos_of_ne_nil (Decimal.format_ne_nil d)

/-- The first number of milliseconds that is no duration. -/
def tooLong : Headers := (∅ : Headers).insert timeoutHeader (formatInt 9223372036855)

theorem streamTimeout_tooLong :
    streamTimeout (some tooLong) = some (9223372036855 * millisecond) :=
  streamTimeout_of_parseInt (AList.lookup_insert _) (parseInt_formatInt (by decide)) (by decide)

/-- **Three deadlines that do not arrive.**  Half a millisecond left on a Go client
and a timeout of half a millisecond on a TypeScript client give a call without a
deadline; a header of 9223372036855 milliseconds gives a negative one. -/
theorem deadline_lost :
    streamTimeout (Go.openHeaders none (some 500000)) = none ∧
    streamTimeout (some (Ts.openHeaders ∅ (some half))) = none ∧
    parseInt (formatInt 9223372036855) = some 9223372036855 ∧
    (streamTimeout (some tooLong)).map Int64.toInt = some (-9223372036854551616) := by
  refine ⟨by decide, ?_, parseInt_formatInt (by decide), ?_⟩
  · have hnum : Decimal.parse half.toBytes = none := by decide
    have hp : parseInt ⟨half.toBytes.toArray⟩ = none := by
      rw [parseInt_toBytes, hnum, Option.bind_none]
    by_contra h
    obtain ⟨t, ht⟩ := Option.ne_none_iff_exists'.1 h
    obtain ⟨ms, hms, -⟩ := exists_of_streamTimeout (AList.lookup_insert _) ht
    rw [hp] at hms
    cases hms
  · rw [streamTimeout_tooLong]
    rfl

/-- The theorem at a Go deadline that arrives, a TypeScript one that does not, and the
first header that is too long. -/
theorem deadline_kept_iff_cases :
    Kept (Int64.toInt 1500000) (streamTimeout (Go.openHeaders none (some 1500000))) ∧
    ¬ Kept (half.value * 10 ^ 6) (streamTimeout (some (Ts.openHeaders ∅ (some half)))) ∧
    ¬ Kept (Int64.toInt 9223372036855 * 10 ^ 6) (streamTimeout (some tooLong)) := by
  refine ⟨?_, ?_, ?_⟩
  · have hpos : 0 < Int64.toInt 1500000 := by decide
    exact (deadline_kept_iff (.go none 1500000) hpos).2 (Or.inl (by decide))
  · intro hkept
    obtain ⟨n, hn, -⟩ := (deadline_kept_iff (.ts ∅ half) trivial).1 hkept
    have hdouble : (1 : ℚ) = 2 * n := by
      rw [← hn, half]
      norm_num
    have : 1 = 2 * n := by exact_mod_cast hdouble
    omega
  · intro hkept
    have hle : Int64.toInt 9223372036855 ≤ maxTimeoutMs :=
      (deadline_kept_iff (.carried (some tooLong) 9223372036855)
        ⟨by decide, _, AList.lookup_insert _, parseInt_formatInt (by decide)⟩).1 hkept
    exact absurd hle (by decide)

end WsProto
