import SharedBike.Lib.Decimal
import SharedBike.Server.Data

/-!
# The texts of the statements

A repository formats a statement with `snprintf` into a buffer of fixed length,
which leaves out what does not fit, and sends what is there. A text that a client
chose is escaped before, into a buffer of its own.

Two queries can be cut so that they ask something else. `list_by_user` has room
for five digits, which the user's id and the limit share: the limit loses its last
digits, or all of them and the query is none, or for the longest ids the whole
clause (`snprintf_selectRides`). `find_by_no` loses the quote that ends it, and is
no query either. In the statements that write, only a number that is too wide for
its column can be too wide for the buffer, and the server refuses both.
-/

namespace SharedBike.Server

open SharedBike.Common SharedBike.Lib

/-! ## The escape -/

/-- NUL, newline, carriage return, Control-Z, the quotes and the backslash. -/
def special (c : Char) : Bool := c.toNat ∈ [0, 10, 13, 26, 34, 39, 92]

/-- The bytes of a text after the escape, without the zero at the end. -/
def escapedSize (s : String) : Nat := s.utf8ByteSize + s.toList.countP special

/-- `mysql_real_escape_string`, as far as its documentation says how much it
writes: each special character becomes two bytes, the others stay. -/
structure Escaper where
  escape : String → String
  size_escape : ∀ s, (escape s).utf8ByteSize = escapedSize s

/-- The text, escaped and with its zero, fits a buffer of `cap` bytes. -/
def Escaper.Fits (E : Escaper) (cap : Nat) (s : String) : Prop :=
  (E.escape s).utf8ByteSize + 1 ≤ cap

/-- There is room for the escaped text. -/
def Room (cap : Nat) (s : String) : Prop := escapedSize s < cap

instance (cap : Nat) (s : String) : Decidable (Room cap s) := Nat.decLt ..

theorem Escaper.fits_iff (E : Escaper) (cap : Nat) (s : String) : E.Fits cap s ↔ Room cap s := by
  rw [Fits, E.size_escape, Nat.add_one_le_iff, Room]

/-- The character that follows the backslash. -/
def escapeLetter (c : Char) : Char :=
  if c.toNat = 0 then '0'
  else if c.toNat = 10 then 'n'
  else if c.toNat = 13 then 'r'
  else if c.toNat = 26 then 'Z'
  else c

def backslashed (c : Char) : List Char := if special c then ['\\', escapeLetter c] else [c]

theorem utf8Size_of_special {c : Char} (h : special c) :
    c.utf8Size = 1 ∧ (escapeLetter c).utf8Size = 1 := by
  have hsmall : ∀ n ∈ [0, 10, 13, 26, 34, 39, 92], (Char.ofNat n).utf8Size = 1 ∧
      (escapeLetter (Char.ofNat n)).utf8Size = 1 := by decide
  have hmem := hsmall c.toNat (of_decide_eq_true h)
  rwa [Char.ofNat_toNat] at hmem

theorem utf8Len_backslashed (l : List Char) :
    String.utf8Len (l.flatMap backslashed) = String.utf8Len l + l.countP special := by
  induction l with
  | nil => rfl
  | cons c l ih =>
    rw [List.flatMap_cons, String.utf8Len_append, ih, String.utf8Len_cons, List.countP_cons]
    unfold backslashed
    cases hspecial : special c with
    | true =>
      obtain ⟨hc, hletter⟩ := utf8Size_of_special hspecial
      simp only [if_true, String.utf8Len_cons, String.utf8Len_nil, hletter, hc]
      have hslash : '\\'.utf8Size = 1 := by decide
      omega
    | false =>
      simp only [Bool.false_eq_true, if_false, String.utf8Len_cons, String.utf8Len_nil]
      omega

/-- The escape of the client library. -/
def Escaper.backslash : Escaper where
  escape s := String.ofList (s.toList.flatMap backslashed)
  size_escape s := by
    rw [String.utf8ByteSize_ofList, utf8Len_backslashed, String.utf8Len_toList, escapedSize]

/-- A character comes to at most four bytes: the special ones are all short. -/
theorem escapedSize_le (s : String) : escapedSize s ≤ 4 * s.length := by
  have hlist : ∀ l : List Char, String.utf8Len l + l.countP special ≤ 4 * l.length := by
    intro l
    induction l with
    | nil => exact Nat.le_refl 0
    | cons c l ih =>
      rw [String.utf8Len_cons, List.countP_cons, List.length_cons]
      cases hspecial : special c with
      | true =>
        have hc := (utf8Size_of_special hspecial).1
        simp only [if_true]
        omega
      | false =>
        have hc := c.utf8Size_le_four
        simp only [Bool.false_eq_true, if_false]
        omega
  have hs := hlist s.toList
  rwa [String.utf8Len_toList, String.length_toList] at hs

theorem room_of_length {cap : Nat} {s : String} (h : 4 * s.length < cap) : Room cap s :=
  Nat.lt_of_le_of_lt (escapedSize_le s) h

/-! ## Formats -/

/-- What `snprintf` leaves of a text of one-byte characters. -/
def snprintf (cap : Nat) (s : String) : String := String.ofList (s.toList.take (cap - 1))

/-- `%d` and `%lld` -/
def decimalText (n : Int) : String := String.ofList (Decimal.text n)

theorem decimalText_size (n : Int) :
    (decimalText n).utf8ByteSize = (Decimal.text n).length := by
  rw [decimalText, String.utf8ByteSize_ofList, Decimal.utf8Len_eq_length Decimal.utf8Size_text]

theorem length_text_int32 (n : Int32) : (Decimal.text n.toInt).length ≤ 11 :=
  Decimal.length_text_le (k := 10) (by have := n.le_toInt; omega) (by have := n.toInt_lt; omega)
    (by decide)

theorem length_text_int64 (n : Int64) : (Decimal.text n.toInt).length ≤ 20 :=
  Decimal.length_text_le (k := 19) (by have := n.le_toInt; omega) (by have := n.toInt_lt; omega)
    (by decide)

/-- The texts that `%.7f` can write for a value. The sign of a zero, and of what is
no number, does not show in the value. -/
def fixed7 : Double → List (List Char)
  | .nan => ["nan".toList, "-nan".toList]
  | .inf negative => [if negative then "-inf".toList else "inf".toList]
  | .fin q =>
    let digits := Decimal.fixed 7 (Double.roundHalfEven (q * 10000000)).natAbs
    if q < 0 then ['-' :: digits]
    else if q = 0 then [digits, '-' :: digits]
    else [digits]

/-- The longest of them. -/
def width7 : Double → Nat
  | .nan => 4
  | .inf negative => if negative then 4 else 3
  | .fin q =>
    (Decimal.fixed 7 (Double.roundHalfEven (q * 10000000)).natAbs).length + if q ≤ 0 then 1 else 0

theorem length_fixed7_le {d : Double} {l : List Char} (hl : l ∈ fixed7 d) :
    l.length ≤ width7 d := by
  match d with
  | .nan =>
    rcases List.mem_pair.mp hl with rfl | rfl <;> decide
  | .inf negative =>
    obtain rfl := List.mem_singleton.mp hl
    cases negative <;> decide
  | .fin q =>
    simp only [fixed7] at hl
    simp only [width7]
    split at hl
    next hneg =>
      rw [List.mem_singleton.mp hl, List.length_cons, if_pos hneg.le]
    next hneg =>
      split at hl
      next hzero =>
        rw [if_pos hzero.le]
        rcases List.mem_pair.mp hl with rfl | rfl
        · exact Nat.le_succ _
        · exact Nat.le_refl _
      next => exact List.mem_singleton.mp hl ▸ Nat.le_add_right _ _

theorem exists_length_fixed7 (d : Double) : ∃ l ∈ fixed7 d, l.length = width7 d := by
  match d with
  | .nan => exact ⟨_, List.mem_cons_of_mem _ List.mem_cons_self, by decide⟩
  | .inf negative => exact ⟨_, List.mem_singleton_self _, by cases negative <;> decide⟩
  | .fin q =>
    simp only [fixed7, width7]
    split
    next hneg => exact ⟨_, List.mem_singleton_self _, by rw [if_pos hneg.le]; rfl⟩
    next hneg =>
      split
      next hzero =>
        exact ⟨_, List.mem_cons_of_mem _ List.mem_cons_self, by rw [if_pos hzero.le]; rfl⟩
      next hzero =>
        refine ⟨_, List.mem_singleton_self _, ?_⟩
        rw [if_neg fun hle => hle.lt_or_eq.elim hneg hzero]
        rfl

/-- Two values fit whatever their texts are exactly when the longest ones do. -/
theorem forall_fixed7_lt_iff {a b : Double} {base cap : Nat} :
    (∀ l ∈ fixed7 a, ∀ m ∈ fixed7 b, base + l.length + m.length < cap) ↔
      base + width7 a + width7 b < cap := by
  constructor
  · intro h
    obtain ⟨l, hl, hla⟩ := exists_length_fixed7 a
    obtain ⟨m, hm, hmb⟩ := exists_length_fixed7 b
    rw [← hla, ← hmb]
    exact h l hl m hm
  · intro h l hl m hm
    have hla := length_fixed7_le hl
    have hmb := length_fixed7_le hm
    omega

theorem utf8Size_fixed7 {d : Double} {l : List Char} (hl : l ∈ fixed7 d) :
    ∀ c ∈ l, c.utf8Size = 1 := by
  have hsigned : ∀ {digits : List Char}, (∀ c ∈ digits, c.utf8Size = 1) →
      ∀ c ∈ '-' :: digits, c.utf8Size = 1 :=
    fun h => List.forall_mem_cons.mpr ⟨by decide, h⟩
  have hword : ∀ {word : List Char}, (word.all fun c => c.utf8Size == 1) = true →
      ∀ c ∈ word, c.utf8Size = 1 :=
    fun h c hc => eq_of_beq (List.all_eq_true.mp h c hc)
  match d with
  | .nan =>
    rcases List.mem_pair.mp hl with rfl | rfl
    · exact hword (by decide)
    · exact hword (by decide)
  | .inf negative =>
    obtain rfl := List.mem_singleton.mp hl
    cases negative with
    | false => exact hword (by decide)
    | true => exact hword (by decide)
  | .fin q =>
    simp only [fixed7] at hl
    split at hl
    · obtain rfl := List.mem_singleton.mp hl
      exact hsigned Decimal.utf8Size_fixed
    · split at hl
      · rcases List.mem_pair.mp hl with rfl | rfl
        · exact Decimal.utf8Size_fixed
        · exact hsigned Decimal.utf8Size_fixed
      · obtain rfl := List.mem_singleton.mp hl
        exact Decimal.utf8Size_fixed

theorem fixed7_size {d : Double} {l : List Char} (hl : l ∈ fixed7 d) :
    (String.ofList l).utf8ByteSize = l.length := by
  rw [String.utf8ByteSize_ofList, Decimal.utf8Len_eq_length (utf8Size_fixed7 hl)]

/-! ## `mysql_bike_repo.cpp` -/

namespace SqlText

def selectBikesHead : String :=
  "SELECT id, bike_no, lat, lng, status FROM bike " ++
  "WHERE status IN (0,2) AND lat BETWEEN "

/-- `list_in_bounds`, with the texts of the bounds. -/
def selectBikesInBox (latMin latMax lngMin lngMax : List Char) : String :=
  selectBikesHead ++ String.ofList latMin ++ " AND " ++ String.ofList latMax ++
  " AND lng BETWEEN " ++ String.ofList lngMin ++ " AND " ++ String.ofList lngMax

/-! ## `mysql_ride_repo.cpp` -/

/-- The columns that the queries for rides have in common. -/
def rideColumns : String :=
  "SELECT id, ride_no, user_id, bike_id, " ++
  "UNIX_TIMESTAMP(start_tm) AS start_ts, UNIX_TIMESTAMP(end_tm) AS end_ts, " ++
  "start_lat, start_lng, end_lat, end_lng, " ++
  "duration_sec, distance_m, amount_cent, status "

/-- `find_by_no`; the number is escaped. -/
def selectRideByNo (no : String) : String := rideColumns ++ "FROM ride WHERE ride_no='" ++ no ++ "'"

/-- `list_by_user` up to its limit. -/
def selectRidesHead (uid : Int32) : String :=
  rideColumns ++ "FROM ride WHERE user_id=" ++ decimalText uid.toInt ++ " ORDER BY start_tm DESC "

/-- `list_by_user` -/
def selectRides (uid limit : Int32) : String :=
  selectRidesHead uid ++ "LIMIT " ++ decimalText limit.toInt

/-- The values of an `INSERT`. -/
def commas : List String → String
  | [] => ""
  | [s] => s
  | s :: rest => s ++ ", " ++ commas rest

def fromUnixtime (ts : Int) : String :=
  "FROM_UNIXTIME(" ++ decimalText (Int64.ofInt ts).toInt ++ ")"

def insertRideHead : String :=
  "INSERT INTO ride(ride_no, user_id, bike_id, start_tm, end_tm, " ++
  "start_lat, start_lng, end_lat, end_lng, " ++
  "duration_sec, distance_m, amount_cent, status) " ++
  "VALUES('"

/-- The first statement of `create_with_points`, with the escaped number and the texts of the
coordinates. -/
def insertRide (no : String) (inp : CreateRideInput)
    (startLat startLng endLat endLng : List Char) : String :=
  insertRideHead ++ no ++ "', " ++
  commas [decimalText inp.userId.toInt, decimalText inp.bikeId.toInt, fromUnixtime inp.startTs,
    fromUnixtime inp.endTs, String.ofList startLat, String.ofList startLng, String.ofList endLat,
    String.ofList endLng, decimalText inp.durationSec.toInt, decimalText inp.distanceM.toInt,
    decimalText inp.amountCent.toInt, "0)"]

def insertPositionHead : String :=
  "INSERT INTO ride_position(ride_id, seq, lat, lng, elapsed_sec) " ++
  "VALUES("

/-- The statement for one point, with the texts of its coordinates. -/
def insertPosition (rideId : Int64) (p : RidePoint) (lat lng : List Char) : String :=
  insertPositionHead ++
  commas [decimalText rideId.toInt, decimalText p.seq.toInt, String.ofList lat, String.ofList lng,
    decimalText p.elapsedSec.toInt] ++ ")"

/-! ## Their sizes -/

theorem size_append {a b : String} {i j : Nat} (ha : a.utf8ByteSize = i)
    (hb : b.utf8ByteSize = j) : (a ++ b).utf8ByteSize = i + j := by
  rw [String.utf8ByteSize_append, ha, hb]

theorem size_append_literal {s literal : String} {n : Nat} (h : literal.utf8ByteSize = n) :
    (s ++ literal).utf8ByteSize = s.utf8ByteSize + n := by
  rw [String.utf8ByteSize_append, h]

theorem length_append_four {a b c d : String} {i j k l : Nat} (ha : a.length = i)
    (hb : b.length = j) (hc : c.length = k) (hd : d.length = l) :
    (a ++ b ++ c ++ d).length = i + j + k + l := by
  rw [String.length_append, String.length_append, String.length_append, ha, hb, hc, hd]

theorem selectBikesHead_size : selectBikesHead.utf8ByteSize = 85 :=
  size_append (i := 47) (j := 38) rfl rfl

theorem selectBikesInBox_size {latMin latMax lngMin lngMax : Double} {a b c d : List Char}
    (ha : a ∈ fixed7 latMin) (hb : b ∈ fixed7 latMax) (hc : c ∈ fixed7 lngMin)
    (hd : d ∈ fixed7 lngMax) :
    (selectBikesInBox a b c d).utf8ByteSize = 112 + a.length + b.length + c.length + d.length := by
  rw [selectBikesInBox, String.utf8ByteSize_append, size_append_literal (n := 5) (by rfl),
    String.utf8ByteSize_append, size_append_literal (n := 17) (by rfl),
    String.utf8ByteSize_append, size_append_literal (n := 5) (by rfl),
    String.utf8ByteSize_append, selectBikesHead_size, fixed7_size ha, fixed7_size hb,
    fixed7_size hc, fixed7_size hd]
  omega

theorem rideColumns_size : rideColumns.utf8ByteSize = 196 :=
  size_append (i := 150) (j := 46)
    (size_append (i := 110) (j := 40) (size_append (i := 38) (j := 72) rfl rfl) rfl) rfl

theorem rideColumns_length : rideColumns.length = 196 :=
  length_append_four (i := 38) (j := 72) (k := 40) (l := 46) (by rfl)
    (by rfl) (by rfl) (by rfl)

theorem selectRideByNo_size (no : String) :
    (selectRideByNo no).utf8ByteSize = 222 + no.utf8ByteSize := by
  rw [selectRideByNo, size_append_literal (n := 1) (by rfl), String.utf8ByteSize_append,
    size_append_literal (n := 25) (by rfl), rideColumns_size]
  omega

theorem selectRidesHead_size (uid : Int32) :
    (selectRidesHead uid).utf8ByteSize = 244 + (Decimal.text uid.toInt).length := by
  rw [selectRidesHead, size_append_literal (n := 24) (by rfl),
    String.utf8ByteSize_append, size_append_literal (n := 24) (by rfl),
    rideColumns_size, decimalText_size]
  omega

theorem selectRidesHead_length (uid : Int32) :
    (selectRidesHead uid).length = 244 + (Decimal.text uid.toInt).length := by
  have huid : (decimalText uid.toInt).length = (Decimal.text uid.toInt).length :=
    String.length_ofList
  refine (length_append_four (j := 24) (l := 24) rideColumns_length (by rfl) huid
    (by rfl)).trans ?_
  omega

theorem selectRides_size (uid limit : Int32) :
    (selectRides uid limit).utf8ByteSize =
      250 + (Decimal.text uid.toInt).length + (Decimal.text limit.toInt).length := by
  rw [selectRides, String.utf8ByteSize_append, size_append_literal (n := 6) (by rfl),
    selectRidesHead_size, decimalText_size]
  omega

theorem commas_size (s : String) (rest : List String) :
    (commas (s :: rest)).utf8ByteSize =
      s.utf8ByteSize + (rest.map fun r => 2 + r.utf8ByteSize).sum := by
  induction rest generalizing s with
  | nil => rfl
  | cons r rest ih =>
    have hcomma : ", ".utf8ByteSize = 2 := rfl
    rw [commas, String.utf8ByteSize_append, String.utf8ByteSize_append, hcomma, ih, List.map_cons,
      List.sum_cons]
    · omega
    · nofun

theorem insertPositionHead_size : insertPositionHead.utf8ByteSize = 70 :=
  size_append (i := 63) (j := 7) rfl rfl

theorem insertPosition_size (rideId : Int64) (p : RidePoint) {lat lng : List Char}
    (hlat : lat ∈ fixed7 p.lat) (hlng : lng ∈ fixed7 p.lng) :
    (insertPosition rideId p lat lng).utf8ByteSize =
      79 + (Decimal.text rideId.toInt).length + (Decimal.text p.seq.toInt).length + lat.length +
        lng.length + (Decimal.text p.elapsedSec.toInt).length := by
  rw [insertPosition, size_append_literal (n := 1) (by rfl)]
  simp only [String.utf8ByteSize_append, insertPositionHead_size, commas_size, List.map_cons,
    List.map_nil, List.sum_cons, List.sum_nil, decimalText_size, fixed7_size hlat,
    fixed7_size hlng]
  omega

theorem fromUnixtime_size_le (ts : Int) : (fromUnixtime ts).utf8ByteSize ≤ 35 := by
  have hts := length_text_int64 (Int64.ofInt ts)
  have hsize : (fromUnixtime ts).utf8ByteSize =
      14 + (Decimal.text (Int64.ofInt ts).toInt).length + 1 :=
    size_append (size_append rfl (decimalText_size _)) rfl
  omega

theorem insertRideHead_size : insertRideHead.utf8ByteSize = 157 :=
  size_append (i := 149) (j := 8)
    (size_append (i := 102) (j := 47) (size_append (i := 62) (j := 40) rfl rfl) rfl) rfl

theorem insertRide_size_le (no : String) (inp : CreateRideInput)
    {startLat startLng endLat endLng : List Char} (hstartLat : startLat ∈ fixed7 inp.startLat)
    (hstartLng : startLng ∈ fixed7 inp.startLng) (hendLat : endLat ∈ fixed7 inp.endLat)
    (hendLng : endLng ∈ fixed7 inp.endLng) :
    (insertRide no inp startLat startLng endLat endLng).utf8ByteSize ≤
      309 + no.utf8ByteSize + startLat.length + startLng.length + endLat.length +
        endLng.length := by
  have huser := length_text_int32 inp.userId
  have hbike := length_text_int32 inp.bikeId
  have hstart := fromUnixtime_size_le inp.startTs
  have hfinish := fromUnixtime_size_le inp.endTs
  have hduration := length_text_int32 inp.durationSec
  have hdistance := length_text_int32 inp.distanceM
  have hamount := length_text_int32 inp.amountCent
  have hstatus : "0)".utf8ByteSize = 2 := rfl
  rw [insertRide, String.utf8ByteSize_append, size_append_literal (n := 3) (by rfl),
    String.utf8ByteSize_append, insertRideHead_size]
  simp only [commas_size, List.map_cons, List.map_nil, List.sum_cons, List.sum_nil, Nat.add_zero,
    decimalText_size, fixed7_size hstartLat, fixed7_size hstartLng, fixed7_size hendLat,
    fixed7_size hendLng]
  generalize "0)".utf8ByteSize = status at hstatus ⊢
  omega

end SqlText

/-- The text of `list_in_bounds` fits its buffer of 256 bytes. -/
def BoxWhole (latMin latMax lngMin lngMax : Double) : Prop :=
  ∀ a ∈ fixed7 latMin, ∀ b ∈ fixed7 latMax, ∀ c ∈ fixed7 lngMin, ∀ d ∈ fixed7 lngMax,
    (SqlText.selectBikesInBox a b c d).utf8ByteSize < 256

theorem boxWhole_of_width {latMin latMax lngMin lngMax : Double}
    (h : 112 + width7 latMin + width7 latMax + width7 lngMin + width7 lngMax < 256) :
    BoxWhole latMin latMax lngMin lngMax := by
  intro a ha b hb c hc d hd
  have hla := length_fixed7_le ha
  have hlb := length_fixed7_le hb
  have hlc := length_fixed7_le hc
  have hld := length_fixed7_le hd
  rw [SqlText.selectBikesInBox_size ha hb hc hd]
  omega

/-- The text of `find_by_no` fits its buffer of 256 bytes. -/
def rideByNoWhole (rideNo : String) : Bool := escapedSize rideNo ≤ 33

theorem rideByNoWhole_iff (E : Escaper) (rideNo : String) :
    rideByNoWhole rideNo = true ↔
      (SqlText.selectRideByNo (E.escape rideNo)).utf8ByteSize < 256 := by
  rw [SqlText.selectRideByNo_size, E.size_escape, rideByNoWhole, decide_eq_true_eq]
  omega

/-! ## Limits -/

/-- What a query says about the number of its rows. -/
inductive LimitClause where
  | absent
  | rows (n : Nat)
  /-- the text ends before the number, or the number has a sign -/
  | broken
  deriving DecidableEq

namespace LimitClause

/-- The clause that ends a query. -/
def read (clause : List Char) : LimitClause :=
  if clause = [] then .absent
  else if clause.drop 6 = [] then .broken
  else if (clause.drop 6).all Char.isDigit then .rows (Decimal.value (clause.drop 6))
  else .broken

/-- The rows that are answered; `none` is an error. -/
def apply {α : Type} : LimitClause → List α → Option (List α)
  | .absent, l => some l
  | .rows n, l => some (l.take n)
  | .broken, _ => none

/-- How many of `n` rows are answered. -/
def most : LimitClause → Nat → Nat
  | .absent, n => n
  | .rows k, n => min k n
  | .broken, _ => 0

theorem most_le (c : LimitClause) (n : Nat) : c.most n ≤ n := by
  cases c with
  | absent => exact Nat.le_refl n
  | rows k => exact Nat.min_le_right k n
  | broken => exact Nat.zero_le n

theorem getD_apply {α : Type} (c : LimitClause) (l : List α) :
    (c.apply l).getD [] = l.take (c.most l.length) := by
  cases c with
  | absent => exact List.take_length.symm
  | rows k => rw [apply, Option.getD_some, most, ← List.take_eq_take_min]
  | broken => rfl

end LimitClause

/-- What the buffer of `list_by_user` leaves of the limit. -/
def limitText (uid limit : Int32) : List Char :=
  ("LIMIT ".toList ++ Decimal.text limit.toInt).take (11 - (Decimal.text uid.toInt).length)

/-- The limit as the server reads it. -/
def limitLeft (uid limit : Int32) : LimitClause := .read (limitText uid limit)

/-- The statement that `list_by_user` sends: whole up to its limit, and of the limit what is
left. -/
theorem snprintf_selectRides (uid limit : Int32) :
    snprintf 256 (SqlText.selectRides uid limit) =
      SqlText.selectRidesHead uid ++ String.ofList (limitText uid limit) := by
  have huid := length_text_int32 uid
  have hhead : (SqlText.selectRidesHead uid).toList.length =
      244 + (Decimal.text uid.toInt).length :=
    String.length_toList.trans (SqlText.selectRidesHead_length uid)
  have hroom : 255 - (SqlText.selectRidesHead uid).toList.length =
      11 - (Decimal.text uid.toInt).length := by omega
  have htext : (SqlText.selectRides uid limit).toList =
      (SqlText.selectRidesHead uid).toList ++ ("LIMIT ".toList ++ Decimal.text limit.toInt) := by
    rw [SqlText.selectRides, String.toList_append, String.toList_append, List.append_assoc,
      decimalText, String.toList_ofList (l := Decimal.text limit.toInt)]
  rw [snprintf, htext, List.take_append, List.take_of_length_le (by omega), hroom,
    String.ofList_append, String.ofList_toList, limitText]

/-! ## What is left of a limit -/

namespace LimitClause

theorem read_eq_absent_iff {clause : List Char} : read clause = .absent ↔ clause = [] := by
  unfold read
  split
  next h => exact iff_of_true rfl h
  next h =>
    refine iff_of_false ?_ h
    split
    · nofun
    · split <;> nofun

theorem read_eq_rows_iff {clause : List Char} {n : Nat} :
    read clause = .rows n ↔ clause.drop 6 ≠ [] ∧ (∀ c ∈ clause.drop 6, c.isDigit = true) ∧
      Decimal.value (clause.drop 6) = n := by
  unfold read
  split
  next h =>
    subst h
    simp
  next =>
    split
    next h => exact iff_of_false nofun fun hall => hall.1 h
    next h =>
      split
      next hdigits =>
        rw [rows.injEq, and_iff_right h, and_iff_right (List.all_eq_true.mp hdigits)]
      next hdigits => exact iff_of_false nofun fun hall => hdigits (List.all_eq_true.mpr hall.2.1)

end LimitClause

section Left

variable {uid limit : Int32}

theorem length_text_uid_le_iff : (Decimal.text uid.toInt).length ≤ 10 ↔ -10 ^ 9 < uid.toInt := by
  have hlt := uid.toInt_lt
  by_cases hneg : uid.toInt < 0
  · exact Decimal.length_text_neg_le_iff hneg (by decide)
  · rw [Decimal.length_text_le_iff (Int.not_lt.mp hneg) (by decide)]
    omega

/-- The digits that are left of the limit. -/
theorem drop_limitText : (limitText uid limit).drop 6 =
    (Decimal.text limit.toInt).take (5 - (Decimal.text uid.toInt).length) := by
  have hlen : "LIMIT ".toList.length = 6 := rfl
  rw [limitText, List.drop_take, List.drop_left' hlen]
  congr 1
  omega

/-- The clause is lost with the ids that take all the room there is for it. -/
theorem limitLeft_eq_absent_iff : limitLeft uid limit = .absent ↔ uid.toInt ≤ -10 ^ 9 := by
  rw [limitLeft, LimitClause.read_eq_absent_iff, limitText, List.take_eq_nil_iff,
    or_iff_left (by simp), ← Int.not_lt, ← length_text_uid_le_iff]
  omega

theorem limitLeft_eq_rows_iff {n : Nat} : limitLeft uid limit = .rows n ↔
    0 < 5 - (Decimal.text uid.toInt).length ∧ 0 ≤ limit.toInt ∧
      Decimal.value ((Decimal.text limit.toInt).take (5 - (Decimal.text uid.toInt).length)) =
        n := by
  rw [limitLeft, LimitClause.read_eq_rows_iff, drop_limitText]
  generalize 5 - (Decimal.text uid.toInt).length = room
  have hpos := Decimal.length_text_pos limit.toInt
  constructor
  · rintro ⟨hne, hdigits, hvalue⟩
    have hroom : 0 < room := by
      rcases Nat.eq_zero_or_pos room with rfl | hroom
      · exact absurd List.take_zero hne
      · exact hroom
    refine ⟨hroom, ?_, hvalue⟩
    -- a sign would be among what is read
    by_contra hneg
    obtain ⟨room, rfl⟩ := Nat.exists_eq_succ_of_ne_zero hroom.ne'
    rw [Decimal.text_of_neg (Int.not_le.mp hneg), List.take_succ_cons] at hdigits
    exact absurd (hdigits '-' List.mem_cons_self) (by decide)
  · rintro ⟨hroom, hlimit, hvalue⟩
    refine ⟨?_, fun c hc => Decimal.isDigit_of_mem_text hlimit (List.mem_of_mem_take hc), hvalue⟩
    intro hnil
    have hlen := congrArg List.length hnil
    rw [List.length_take, List.length_nil] at hlen
    omega

/-- No limit grows. -/
theorem le_of_limitLeft {n : Nat} (h : limitLeft uid limit = .rows n) : n ≤ limit.toInt.toNat := by
  obtain ⟨-, hlimit, rfl⟩ := limitLeft_eq_rows_iff.mp h
  exact (Decimal.value_take_le _ _).trans_eq (Decimal.value_text hlimit)

/-- The whole limit is read exactly when the two numbers have no more than five digits. -/
theorem limitLeft_whole_iff (hlimit : 0 < limit.toInt) :
    limitLeft uid limit = .rows limit.toInt.toNat ↔
      (Decimal.text uid.toInt).length + (Decimal.text limit.toInt).length ≤ 5 := by
  have hpos := Decimal.length_text_pos limit.toInt
  have hvalue := Decimal.value_text hlimit.le
  rw [limitLeft_eq_rows_iff, ← hvalue]
  constructor
  · rintro ⟨hroom, -, hsame⟩
    by_contra hlong
    exact absurd hsame (Nat.ne_of_lt (Decimal.value_take_lt (by omega) (by omega)))
  · intro hshort
    refine ⟨by omega, hlimit.le, ?_⟩
    rw [List.take_of_length_le (by omega)]

end Left

end SharedBike.Server
