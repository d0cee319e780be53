import SharedBike.Server.Messages
import SharedBike.Server.EndRideLaws
import SharedBike.Server.Isolation
import SharedBike.Server.Rentals
import SharedBike.Server.RideDetail
import SharedBike.Client.Bridge
import SharedBike.Wire.Codec
import Mathlib.Data.Nat.Digits.Defs

/-!
# Which requests get a reply

A handler's last step is `encode`, which throws when the message is too long,
and Dispatch drops the reply of a handler that throws: the client then waits
for an answer that does not come. Two messages have lists whose length no
query limits, the bikes around a place and the points of a ride, and the query
for a user's rides loses its limit where the id takes all the room for it. `Fits`
says of the state what has to be so: the bikes in the circle, the ride with its
points, or the rides of such a user, take no more bytes than a message may have.
`replied_iff` says that a two-way request gets a reply that its sender takes for
one exactly then, for every state that the schema admits and every pattern of
failures. The other eight messages are short in every state.

`crowd_unanswered` is a state in which the reply is not sent: 20 000 bikes at
one place.
-/

namespace SharedBike.Server

open SharedBike.Common SharedBike.Lib SharedBike.Lib.Protobuf SharedBike.Wire SharedBike.Client

variable {P : Platform} {eventId : UInt16} {uid : Int32} {r : Request} {t : Tables P}

/-! ## Texts -/

theorem utf8Len_le (l : List Char) : String.utf8Len l ≤ 4 * l.length := by
  induction l with
  | nil => exact Nat.le_refl 0
  | cons c l ih =>
    have hc := c.utf8Size_le_four
    rw [String.utf8Len_cons, List.length_cons]
    omega

theorem utf8ByteSize_le (s : String) : s.utf8ByteSize ≤ 4 * s.length := by
  rw [← String.ofList_toList (s := s), String.utf8ByteSize_ofList, String.length_ofList]
  exact utf8Len_le _

theorem toText_size (ec : ErrCode) : ec.toText.utf8ByteSize ≤ 60 := by
  cases ec <;> decide

theorem descOr_size (ec : ErrCode) {desc : String} (h : desc.utf8ByteSize ≤ 60) :
    (descOr ec desc).utf8ByteSize ≤ 60 := by
  unfold descOr
  split
  · exact toText_size ec
  · exact h

/-- `oss << std::hex` -/
def hexText (n : UInt64) : String := String.ofList (Nat.toDigits 16 n.toNat)

theorem hexText_size (n : UInt64) : (hexText n).utf8ByteSize ≤ 64 := by
  have hlen := Nat.toDigits_length 16 n.toNat 16 (by decide) n.toNat_lt
  rw [hexText, String.utf8ByteSize_ofList]
  exact (utf8Len_le _).trans (by omega)

/-- A new token is the text of two draws of 64 bits. -/
def Env.Drawn (env : Env) : Prop := ∃ a b, env.token = hexText a ++ hexText b

theorem Env.Drawn.size {env : Env} (h : env.Drawn) : env.token.utf8ByteSize ≤ 128 := by
  obtain ⟨a, b, htoken⟩ := h
  have ha := hexText_size a
  have hb := hexText_size b
  rw [htoken, String.utf8ByteSize_append]
  omega

/-- `fmt_iso` writes into a buffer of 32 bytes, with the zero at the end. -/
def Platform.IsoFits (P : Platform) : Prop := ∀ ts, (P.fmtIso ts).utf8ByteSize ≤ 31

theorem makeRideNo_size {date seq : Int32} {no : String} (h : makeRideNo date seq = .ok no) :
    no.utf8ByteSize ≤ 60 := by
  have hlen := makeRideNo_length h
  exact (utf8ByteSize_le no).trans (by omega)

/-! ## Messages -/

theorem doubleField_le (field : Nat) (h : field < 16) (x : Double) :
    (doubleField field x).length ≤ 9 :=
  length_double_le h _ _

/-- The text fields of the small messages. -/
theorem text_le (field : Nat) (h : field < 16) {s : String} (hs : s.utf8ByteSize ≤ 60) :
    (string field s).length ≤ 62 :=
  length_string_le (k := 0) h hs (by decide)

/-- A column of 32 characters, or a token. -/
theorem column_le (field : Nat) (h : field < 16) {s : String} (hs : s.utf8ByteSize ≤ 128) :
    (string field s).length ≤ 131 :=
  length_string_le (k := 1) h hs (by decide)

theorem column_size {s : String} (h : s.length ≤ 32) : s.utf8ByteSize ≤ 128 :=
  (utf8ByteSize_le s).trans (by omega)

theorem MobileResponse.size_le {m : MobileResponse} (h : m.data.utf8ByteSize ≤ 60) :
    m.serialize.length ≤ 84 := by
  have hcode := length_int_le 1 (by decide) m.code.toInt
  have hicode := length_int_le 2 (by decide) m.icode.toInt
  have hdata := text_le 3 (by decide) h
  simp only [serialize, List.length_append]
  omega

theorem LoginResponse.size_le {m : LoginResponse} (h : m.desc.utf8ByteSize ≤ 60)
    (htoken : m.sessionToken.utf8ByteSize ≤ 128) : m.serialize.length ≤ 204 := by
  have hcode := length_int_le 1 (by decide) m.code.toInt
  have hdesc := text_le 2 (by decide) h
  have hsession := column_le 3 (by decide) htoken
  simp only [serialize, List.length_append]
  omega

theorem RechargeResponse.size_le {m : RechargeResponse} (h : m.desc.utf8ByteSize ≤ 60) :
    m.serialize.length ≤ 84 := by
  have hcode := length_int_le 1 (by decide) m.code.toInt
  have hbalance := length_int_le 2 (by decide) m.balance.toInt
  have hdesc := text_le 3 (by decide) h
  simp only [serialize, List.length_append]
  omega

theorem AccountBalanceResponse.size_le (m : AccountBalanceResponse) :
    m.serialize.length ≤ 22 := by
  have hcode := length_int_le 1 (by decide) m.code.toInt
  have hbalance := length_int_le 2 (by decide) m.balance.toInt
  simp only [serialize, List.length_append]
  omega

theorem RecordInfo.entry_le (m : RecordInfo) : (delimited 2 m.serialize).length ≤ 35 := by
  refine length_delimited_le (n := 33) (k := 0) (by decide) ?_ (by decide)
  have htype := length_int_le 1 (by decide) m.type.toInt
  have hamount := length_int_le 2 (by decide) m.amount.toInt
  have htime := length_int_le 3 (by decide) m.timestamp
  simp only [serialize, List.length_append]
  omega

theorem ListAccountRecordsResponse.size_le {m : ListAccountRecordsResponse}
    (h : m.records.length ≤ 100) : m.serialize.length ≤ 3511 := by
  have hcode := length_int_le 1 (by decide) m.code.toInt
  have hrecords : (messages 2 RecordInfo.serialize m.records).length ≤ m.records.length * 35 :=
    length_messages_le fun r _ => r.entry_le
  simp only [serialize, List.length_append]
  omega

theorem BikeInfo.entry_le {m : BikeInfo} (h : m.bikeNo.length ≤ 32) :
    (delimited 2 m.serialize).length ≤ 163 := by
  refine length_delimited_le (n := 160) (k := 1) (by decide) ?_ (by decide)
  have hno := column_le 1 (by decide) (column_size h)
  have hlat := doubleField_le 2 (by decide) m.lat
  have hlng := doubleField_le 3 (by decide) m.lng
  have hstatus := length_int_le 4 (by decide) m.status.toInt
  simp only [serialize, List.length_append]
  omega

theorem ListNearbyBikesResponse.size_le {m : ListNearbyBikesResponse}
    (h : ∀ b ∈ m.bikes, b.bikeNo.length ≤ 32) :
    m.serialize.length ≤ 11 + m.bikes.length * 163 := by
  have hcode := length_int_le 1 (by decide) m.code.toInt
  have hbikes : (messages 2 BikeInfo.serialize m.bikes).length ≤ m.bikes.length * 163 :=
    length_messages_le fun b hb => BikeInfo.entry_le (h b hb)
  simp only [serialize, List.length_append]
  omega

theorem ScanUnlockResponse.size_le {m : ScanUnlockResponse} (h : m.desc.utf8ByteSize ≤ 60)
    (hride : m.rideNo.utf8ByteSize ≤ 60) : m.serialize.length ≤ 146 := by
  have hcode := length_int_le 1 (by decide) m.code.toInt
  have hdesc := text_le 2 (by decide) h
  have hno := text_le 3 (by decide) hride
  have hstart := length_int_le 4 (by decide) m.startTs
  simp only [serialize, List.length_append]
  omega

theorem EndRideResponse.size_le {m : EndRideResponse} (h : m.desc.utf8ByteSize ≤ 60) :
    m.serialize.length ≤ 117 := by
  have hcode := length_int_le 1 (by decide) m.code.toInt
  have hdesc := text_le 2 (by decide) h
  have hduration := length_int_le 3 (by decide) m.durationSec.toInt
  have hdistance := length_int_le 4 (by decide) m.distanceM.toInt
  have hamount := length_int_le 5 (by decide) m.amountCent.toInt
  have hbalance := length_int_le 6 (by decide) m.balanceAfter.toInt
  simp only [serialize, List.length_append]
  omega

theorem ReportDamageResponse.size_le {m : ReportDamageResponse} (h : m.desc.utf8ByteSize ≤ 60) :
    m.serialize.length ≤ 73 := by
  have hcode := length_int_le 1 (by decide) m.code.toInt
  have hdesc := text_le 2 (by decide) h
  simp only [serialize, List.length_append]
  omega

theorem PointInfo.entry_le (m : PointInfo) : (delimited 8 m.serialize).length ≤ 31 := by
  refine length_delimited_le (n := 29) (k := 0) (by decide) ?_ (by decide)
  have hlat := doubleField_le 1 (by decide) m.lat
  have hlng := doubleField_le 2 (by decide) m.lng
  have helapsed := length_int_le 3 (by decide) m.elapsedSec.toInt
  simp only [serialize, List.length_append]
  omega

theorem GetRideDetailResponse.size_le {m : GetRideDetailResponse} (h : m.rideNo.length ≤ 32)
    (hstart : m.startTm.utf8ByteSize ≤ 31) (hend : m.endTm.utf8ByteSize ≤ 31) :
    m.serialize.length ≤ 299 + m.points.length * 31 := by
  have hcode := length_int_le 1 (by decide) m.code.toInt
  have hno := column_le 2 (by decide) (column_size h)
  have hduration := length_int_le 3 (by decide) m.durationSec.toInt
  have hdistance := length_int_le 4 (by decide) m.distanceM.toInt
  have hamount := length_int_le 5 (by decide) m.amountCent.toInt
  have hstartTm := text_le 6 (by decide) (hstart.trans (by decide))
  have hendTm := text_le 7 (by decide) (hend.trans (by decide))
  have hpoints : (messages 8 PointInfo.serialize m.points).length ≤ m.points.length * 31 :=
    length_messages_le fun p _ => p.entry_le
  simp only [serialize, List.length_append]
  omega

theorem RideSummary.entry_le {m : RideSummary} (h : m.rideNo.length ≤ 32)
    (hstart : m.startTm.utf8ByteSize ≤ 31) : (delimited 2 m.serialize).length ≤ 229 := by
  refine length_delimited_le (n := 226) (k := 1) (by decide) ?_ (by decide)
  have hno := column_le 1 (by decide) (column_size h)
  have htm := text_le 2 (by decide) (hstart.trans (by decide))
  have hduration := length_int_le 3 (by decide) m.durationSec.toInt
  have hdistance := length_int_le 4 (by decide) m.distanceM.toInt
  have hamount := length_int_le 5 (by decide) m.amountCent.toInt
  simp only [serialize, List.length_append]
  omega

theorem ListRidesResponse.size_le {m : ListRidesResponse} (hlen : m.rides.length ≤ 100)
    (h : ∀ r ∈ m.rides, r.rideNo.length ≤ 32 ∧ r.startTm.utf8ByteSize ≤ 31) :
    m.serialize.length ≤ 22911 := by
  have hcode := length_int_le 1 (by decide) m.code.toInt
  have hrides : (messages 2 RideSummary.serialize m.rides).length ≤ m.rides.length * 229 :=
    length_messages_le fun r hr => RideSummary.entry_le (h r hr).1 (h r hr).2
  simp only [serialize, List.length_append]
  omega

/-! ## The widths of the columns -/

/-- The numbers are no longer than their columns. -/
structure Tables.Sized (t : Tables P) : Prop where
  bike : ∀ b ∈ t.bike, b.bikeNo.length ≤ 32
  ride : ∀ r ∈ t.ride, r.rideNo.length ≤ 32

theorem Tables.Sized.updateBike (h : t.Sized) (id : Int32) (f : BikeRow → BikeRow)
    (hf : ∀ b, (f b).id = b.id ∧ (f b).bikeNo = b.bikeNo) : (t.updateBike id f hf).Sized := by
  refine ⟨?_, h.ride⟩
  intro b' hb'
  obtain ⟨b, hb, rfl⟩ := List.mem_map.mp hb'
  split
  · rw [(hf b).2]
    exact h.bike b hb
  · exact h.bike b hb

theorem Tables.Sized.insertBike {t t' : Tables P} (h : t.Sized) {id : Int32} {b : Bike}
    (hins : t.insertBike id b = some t') : t'.Sized := by
  simp only [Tables.insertBike, Option.bind_eq_bind, Option.bind_eq_some_iff,
    Option.dite_none_right_eq_some] at hins
  obtain ⟨lat, -, lng, -, hok, heq⟩ := hins
  cases heq
  refine ⟨?_, h.ride⟩
  intro b' hb'
  rcases List.mem_append.mp hb' with hold | hnew
  · exact h.bike b' hold
  · rw [List.mem_singleton.mp hnew]
    exact hok.1

theorem Tables.Sized.archiveRide {t t' : Tables P} (h : t.Sized) {env : Env} {rideId : Int}
    {inp : CreateRideInput} (harch : t.archiveRide env rideId inp = some t')
    (hbike : t'.bike = t.bike) : t'.Sized := by
  refine ⟨hbike ▸ h.bike, ?_⟩
  have hride := Tables.archiveRide_ride harch
  simp only [Tables.archiveRide, Option.ite_none_left_eq_some, Option.bind_eq_some_iff,
    Tables.insertRide, Option.bind_eq_bind, Option.dite_none_right_eq_some] at harch
  obtain ⟨-, _, ⟨row, hrow, hok, -⟩, -⟩ := harch
  obtain ⟨row', hrow', heq⟩ := hride
  rw [hrow] at hrow'
  cases hrow'
  rw [heq]
  intro r hr
  rcases List.mem_append.mp hr with hold | hnew
  · exact h.ride r hold
  · rw [List.mem_singleton.mp hnew]
    exact hok.1

/-- No operation makes a number longer than its column. -/
theorem Production.exec_sized (env : Env) (c : RepoCall) {s : Production P} (h : s.tables.Sized) :
    (exec env c s).2.tables.Sized := by
  have hbike : Table.bike ∉ c.targets → (exec env c s).2.tables.bike = s.tables.bike :=
    exec_sameIn env c s
  have hride : Table.ride ∉ c.targets → (exec env c s).2.tables.ride = s.tables.ride :=
    exec_sameIn env c s
  cases c with
  | updateStatus id status =>
    rw [exec_updateStatus]
    split
    · exact h
    · exact h.updateBike id (fun b => { b with status }) fun _ => ⟨rfl, rfl⟩
  | updateLocation id lat lng =>
    rw [exec_updateLocation]
    split
    next lat' lng' _ =>
      exact h.updateBike id (fun b => { b with lat := lat', lng := lng' }) fun _ => ⟨rfl, rfl⟩
    · exact h
  | insert b =>
    rw [exec_insert]
    split
    next t ht =>
      obtain ⟨-, hins⟩ := Option.ite_none_left_eq_some.mp ht
      exact h.insertBike hins
    · exact h
  | createWithPoints inp =>
    obtain ⟨ids, -, heq⟩ := s.sql_createWithPoints env inp
    have hsame := hbike (by simp [RepoCall.targets])
    rw [exec, heq] at hsame ⊢
    cases harch : s.tables.archiveRide env s.ids.ride inp with
    | none => exact h
    | some t =>
      rw [harch] at hsame
      exact h.archiveRide harch hsame
  | _ =>
    refine ⟨?_, ?_⟩
    · rw [hbike (by simp [RepoCall.targets])]
      exact h.bike
    · rw [hride (by simp [RepoCall.targets])]
      exact h.ride

/-! ## What the handlers are answered -/

/-- What is known of an answer before it is looked at. -/
def Call.bounded (now : Nat) : (c : Call) → c.Res → Prop
  | .nowUnix, r => r = now
  | .repo (.createSession _), token => token.utf8ByteSize ≤ 128
  | .repo (.listRecords _ limit), records => records.length ≤ limit.toInt.toNat
  | .repo (.insert b), found => ∀ b', found = some b' → b'.bikeNo = b.bikeNo
  | _, _ => True

theorem Production.length_listRecords (env : Env) (s : Production P) (uid limit : Int32) :
    (exec env (.listRecords uid limit) s).1.length ≤ limit.toInt.toNat := by
  rw [exec, Mysql.listRecords, sql_single env _ rfl]
  split
  · exact Nat.zero_le _
  · by_cases hlimit : limit < 0
    · simp only [Stmt.apply, Stmt.limited, if_pos hlimit]
      exact Nat.zero_le _
    · simp only [Stmt.apply, Stmt.limited, if_neg hlimit]
      exact List.length_take_le ..

theorem Tables.mem_bikesInBox {latMin latMax lngMin lngMax : Double} {b : BikeRow}
    (h : b ∈ (t.bikesInBox latMin latMax lngMin lngMax).getD []) : b ∈ t.bike := by
  obtain ⟨l, hbox, hb⟩ : ∃ l, t.bikesInBox latMin latMax lngMin lngMax = some l ∧ b ∈ l := by
    cases hbox : t.bikesInBox latMin latMax lngMin lngMax with
    | none => simp [hbox] at h
    | some l => exact ⟨l, rfl, by simpa [hbox] using h⟩
  simp only [Tables.bikesInBox, Option.bind_eq_bind, Option.bind_eq_some_iff,
    Option.some.injEq] at hbox
  obtain ⟨_, -, _, -, _, -, _, -, rfl⟩ := hbox
  exact List.mem_of_mem_filter hb

theorem Tables.mem_ridesOf {r : RideRow} (h : r ∈ t.ridesOf uid) :
    r ∈ t.ride := by
  rw [Tables.ridesOf, List.mem_insertionSort, List.mem_reverse] at h
  exact List.mem_of_mem_filter h

namespace World

variable {env : Env} {w : World P .production}

theorem exec_bounded (hdrawn : env.Drawn) (hsized : w.repos.tables.Sized) (c : Call) :
    c.bounded env.now (World.exec env c w).1 ∧ (World.exec env c w).2.repos.tables.Sized := by
  cases c with
  | repo c =>
    refine ⟨?_, Production.exec_sized env c hsized⟩
    cases c with
    | createSession mobile =>
      simp only [Call.bounded, World.exec, Deployment.exec, Production.exec, Redis.createSession]
      split
      · exact Nat.zero_le _
      · split <;> exact hdrawn.size
    | listRecords uid limit => exact Production.length_listRecords env w.repos uid limit
    | insert b =>
      simp only [Call.bounded, World.exec, Deployment.exec, Production.exec_insert]
      split
      · rintro _ ⟨⟩
        rfl
      · rintro _ ⟨⟩
    | _ => trivial
  | ride c => exact ⟨trivial, hsized⟩
  | nowUnix => exact ⟨rfl, hsized⟩
  | today => exact ⟨trivial, hsized⟩

end World

/-! ## How the handlers end -/

section Ends

variable {α : Type} {now : Nat} {n : Nat}

/-- The handler ends with a message of at most `n` bytes. -/
def Ends (serialize : α → Bytes) (n : Nat) (out : Outcome α) : Prop :=
  ∃ res, out = .ok res ∧ (serialize res).length ≤ n

theorem requireUser_gives (token : String) :
    (requireUser token).Gives (Call.bounded now) fun _ => True := by
  refine .ask fun found _ => ?_
  cases found with
  | none => trivial
  | some mobile => exact .ask fun _ _ => trivial

/-- A handler that begins with the lookup of its caller. -/
theorem gives_of_user {token : String} {k : Option Int32 → Calls α} {Q : α → Prop}
    (hnone : (k none).Gives (Call.bounded now) Q)
    (huser : ∀ uid, (k (some uid)).Gives (Call.bounded now) Q) :
    (requireUser token >>= k).Gives (Call.bounded now) Q := by
  refine (requireUser_gives token).bind fun found _ => ?_
  cases found with
  | none => exact hnone
  | some uid => exact huser uid

/-- The account handlers make the two calls of the lookup themselves. -/
theorem gives_of_session {token : String} {k : Option String → Calls α} {Q : α → Prop}
    (hnone : (k none).Gives (Call.bounded now) Q)
    (hsome : ∀ mobile, (k (some mobile)).Gives (Call.bounded now) Q) :
    (repo (.lookupSession token) >>= k).Gives (Call.bounded now) Q := by
  refine .ask fun found _ => ?_
  cases found with
  | none => exact hnone
  | some mobile => exact hsome mobile

theorem mobileCode_ends (payload : Option MobileRequest) :
    (mobileCode payload).Gives (Call.bounded now) (Ends MobileResponse.serialize 84) := by
  have hfinish : ∀ ec icode, Ends MobileResponse.serialize 84 (.ok (.finish ec icode)) :=
    fun ec icode => ⟨_, rfl, MobileResponse.size_le (toText_size ec)⟩
  cases payload with
  | none => exact hfinish .invalidMsg 0
  | some req => exact .ask fun icode _ => hfinish .ok icode

theorem login_ends (payload : Option LoginRequest) :
    (login payload).Gives (Call.bounded now) (Ends LoginResponse.serialize 204) := by
  have hfail : ∀ ec, Ends LoginResponse.serialize 204 (.ok (.fail ec)) :=
    fun ec => ⟨_, rfl, LoginResponse.size_le (toText_size ec) (Nat.zero_le _)⟩
  cases payload with
  | none => exact hfail .invalidMsg
  | some req =>
    refine .ask fun _ _ => .ite (fun _ => hfail .invalidData) fun _ => ?_
    refine .ask fun _ _ => .ask fun _ _ => .ask fun _ _ => .ask fun token htoken => ?_
    exact ⟨_, rfl, LoginResponse.size_le (toText_size .ok) htoken⟩

theorem recharge_ends (payload : Option RechargeRequest) :
    (recharge payload).Gives (Call.bounded now) (Ends RechargeResponse.serialize 84) := by
  have hends : ∀ (ec : ErrCode) balance,
      Ends RechargeResponse.serialize 84 (.ok ⟨ec.code, balance, ec.toText⟩) :=
    fun ec balance => ⟨_, rfl, RechargeResponse.size_le (toText_size ec)⟩
  cases payload with
  | none => exact hends .invalidMsg 0
  | some req =>
    refine .ite (fun _ => hends .invalidData 0) fun _ => ?_
    refine gives_of_session (hends .unauthorized 0) fun mobile => ?_
    exact .ask fun _ _ => .ask fun balance _ => hends .ok balance

theorem accountBalance_ends (payload : Option AccountBalanceRequest) :
    (accountBalance payload).Gives (Call.bounded now)
      (Ends AccountBalanceResponse.serialize 22) := by
  have hends : ∀ m, Ends AccountBalanceResponse.serialize 22 (.ok m) :=
    fun m => ⟨m, rfl, m.size_le⟩
  cases payload with
  | none => exact hends _
  | some req =>
    refine gives_of_session (hends _) fun mobile => ?_
    exact .ask fun _ _ => .ask fun _ _ => hends _

theorem listRecords_ends (payload : Option ListAccountRecordsRequest) :
    (listRecords payload).Gives (Call.bounded now)
      (Ends ListAccountRecordsResponse.serialize 3511) := by
  have hfail : ∀ code, Ends ListAccountRecordsResponse.serialize 3511 (.ok ⟨code, []⟩) :=
    fun code => ⟨_, rfl, ListAccountRecordsResponse.size_le (Nat.zero_le _)⟩
  cases payload with
  | none => exact hfail _
  | some req =>
    refine gives_of_session (hfail _) fun mobile => .ask fun _ _ => .ask fun records hrecords => ?_
    refine ⟨_, rfl, ListAccountRecordsResponse.size_le ?_⟩
    rw [List.length_map]
    exact hrecords

theorem reportDamage_ends (payload : Option ReportDamageRequest) :
    (reportDamage payload).Gives (Call.bounded now) (Ends ReportDamageResponse.serialize 73) := by
  have hfail : ∀ ec desc, desc.utf8ByteSize ≤ 60 →
      Ends ReportDamageResponse.serialize 73 (.ok (.fail ec desc)) :=
    fun ec desc hdesc => ⟨_, rfl, ReportDamageResponse.size_le (descOr_size ec hdesc)⟩
  cases payload with
  | none => exact hfail _ _ (by decide)
  | some req =>
    refine gives_of_user (hfail _ _ (by decide)) fun uid =>
      .ite (fun _ => hfail _ _ (by decide)) fun _ => .ask fun found _ => ?_
    cases found with
    | none => exact hfail _ _ (by decide)
    | some bike =>
      exact .ask fun _ _ => ⟨_, rfl, ReportDamageResponse.size_le (toText_size .ok)⟩

/-- The number of the second is never out of its range. -/
theorem dailySeq_range (now : Nat) : ¬ (dailySeq now < 1 ∨ dailySeq now > 999999) := by
  have hseq := toInt_dailySeq now
  rw [gt_iff_lt, Int32.lt_iff_toInt_lt, Int32.lt_iff_toInt_lt, hseq]
  show ¬ (((now % 999999 : Nat) + 1 : Int) < 1 ∨ (999999 : Int) < (now % 999999 : Nat) + 1)
  omega

theorem unlockBike_ends (req : ScanUnlockRequest) (uid : Int32) (bike : Bike) :
    (unlockBike req uid bike).Gives (Call.bounded now) (Ends ScanUnlockResponse.serialize 146) := by
  refine .ask fun bal _ => .ite (fun _ => ?_) fun _ => ?_
  · exact ⟨_, rfl, ScanUnlockResponse.size_le (descOr_size _ (by decide)) (Nat.zero_le _)⟩
  refine .ask fun seqTs hseq => .ask fun date _ => ?_
  obtain rfl : seqTs = now := hseq
  cases hno : makeRideNo date (dailySeq now) with
  | error what =>
    rw [makeRideNo, if_neg (dailySeq_range now)] at hno
    cases hno
  | ok rideNo =>
    refine .ask fun startTs _ => .ask fun _ _ => .ask fun _ _ => ?_
    exact ⟨_, rfl, ScanUnlockResponse.size_le (toText_size .ok) (makeRideNo_size hno)⟩

theorem scanUnlock_ends (payload : Option ScanUnlockRequest) :
    (scanUnlock payload).Gives (Call.bounded now) (Ends ScanUnlockResponse.serialize 146) := by
  have hfail : ∀ ec desc, desc.utf8ByteSize ≤ 60 →
      Ends ScanUnlockResponse.serialize 146 (.ok (.fail ec desc)) := fun ec desc hdesc =>
    ⟨_, rfl, ScanUnlockResponse.size_le (descOr_size ec hdesc) (Nat.zero_le _)⟩
  cases payload with
  | none => exact hfail _ _ (by decide)
  | some req =>
    refine gives_of_user (hfail _ _ (by decide)) fun uid =>
      .ite (fun _ => hfail _ _ (by decide)) fun _ => .ask fun found _ => ?_
    cases found with
    | none => exact hfail _ _ (by decide)
    | some bike =>
      obtain ⟨id, bikeNo, lat, lng, status⟩ := bike
      cases status with
      | damaged => exact hfail _ _ (by decide)
      | rented => exact hfail _ _ (by decide)
      | idle => exact unlockBike_ends req uid _

theorem endRide_ends (P : Platform) (payload : Option EndRideRequest) :
    (endRide P payload).Gives (Call.bounded now) (Ends EndRideResponse.serialize 117) := by
  have hfail : ∀ ec desc, desc.utf8ByteSize ≤ 60 →
      Ends EndRideResponse.serialize 117 (.ok (.fail ec desc)) :=
    fun ec desc hdesc => ⟨_, rfl, EndRideResponse.size_le (descOr_size ec hdesc)⟩
  cases payload with
  | none => exact hfail _ _ (by decide)
  | some req =>
    refine gives_of_user (hfail _ _ (by decide)) fun uid =>
      .ite (fun _ => hfail _ _ (by decide)) fun _ => .ask fun found _ => ?_
    cases found with
    | none =>
      refine .ask fun row _ => ?_
      cases row with
      | none => exact hfail _ _ (by decide)
      | some row =>
        refine .ite (fun _ => hfail _ _ (by decide)) fun _ => .ask fun bal _ => ?_
        exact ⟨_, rfl, EndRideResponse.size_le (toText_size .ok)⟩
    | some sess =>
      refine .ite (fun _ => hfail _ _ (by decide)) fun _ => .ask fun endTs _ => ?_
      rw [computeFee_duration]
      refine .ask fun newBal _ => .ite (fun _ => hfail _ _ (by decide)) fun _ => ?_
      refine .ask fun _ _ => .ask fun _ _ => .ask fun _ _ => .ask fun _ _ => ?_
      exact ⟨_, rfl, EndRideResponse.size_le (toText_size .ok)⟩

theorem insertBike_ends (draws : SpawnDraws) (i : Nat) (lat lng : Double) (tries : Nat) :
    (insertBike draws i lat lng tries).Gives (Call.bounded now)
      fun found => ∀ b ∈ found, b.bikeNo.length ≤ 32 := by
  induction tries with
  | zero => nofun
  | succ tries ih =>
    refine .ask fun found hfound => ?_
    cases found with
    | none => exact ih
    | some b =>
      rintro _ ⟨⟩
      rw [hfound b rfl]
      exact (makeDynBikeNo_length _).trans_le (by decide)

theorem spawnBikes_ends (P : Platform) (draws : SpawnDraws) (total : Nat) (lat lng r : Double)
    (need : Nat) :
    (spawnBikes P draws total lat lng r need).Gives (Call.bounded now)
      fun l => l.length ≤ need ∧ ∀ b ∈ l, b.bikeNo.length ≤ 32 := by
  induction need with
  | zero => exact ⟨Nat.le_refl 0, fun _ hmem => absurd hmem List.not_mem_nil⟩
  | succ need ih =>
    refine (insertBike_ends draws _ _ _ kMaxNoRetry).bind fun found hfound => ?_
    refine ih.bind fun rest hrest => ⟨?_, fun b hb => ?_⟩
    · have hone : found.toList.length ≤ 1 := by cases found <;> simp
      rw [List.length_append]
      omega
    · rcases List.mem_append.mp hb with hnew | hold
      · exact hfound b (Option.mem_toList.mp hnew)
      · exact hrest.2 b hold

end Ends

/-! ## The lists without a limit -/

/-- The bytes that a bike takes in a list. -/
def bikeBytes (b : Bike) : Nat := (delimited 2 (BikeInfo.ofBike b).serialize).length

/-- The bytes that a ride takes without its points. -/
def rideBytes (P : Platform) (ride : Ride) : Nat :=
  (GetRideDetailResponse.mk ErrCode.ok.code ride.rideNo ride.durationSec ride.distanceM
    ride.amountCent (P.fmtIso ride.startTs) (P.fmtIso ride.endTs) []).serialize.length

/-- The bytes that a point takes in a list. -/
def pointBytes (p : RidePoint) : Nat :=
  (delimited 8 (PointInfo.mk p.lat p.lng p.elapsedSec).serialize).length

/-- The bytes that a ride takes in the list of a user's rides. -/
def summaryBytes (P : Platform) (r : Ride) : Nat :=
  (delimited 2 (RideSummary.mk r.rideNo (P.fmtIso r.startTs) r.durationSec r.distanceM
    r.amountCent).serialize).length

theorem length_okCode : (int 1 ErrCode.ok.code.toInt).length = 3 := by
  show (int 1 200).length = 3
  rw [int, if_neg (by decide), List.length_append, length_tag (by decide)]
  show 1 + (varint 200).length = 3
  rw [varint_of_le (by decide), varint_of_lt (by decide)]
  rfl

theorem size_bikes (bikes : List Bike) :
    (ListNearbyBikesResponse.mk ErrCode.ok.code (bikes.map .ofBike)).serialize.length =
      3 + (bikes.map bikeBytes).sum := by
  simp only [ListNearbyBikesResponse.serialize, List.length_append, length_okCode, length_messages,
    List.map_map]
  rfl

theorem size_rides (P : Platform) (rides : List Ride) :
    (ListRidesResponse.mk ErrCode.ok.code (rides.map fun r =>
      ⟨r.rideNo, P.fmtIso r.startTs, r.durationSec, r.distanceM, r.amountCent⟩)).serialize.length =
      3 + (rides.map (summaryBytes P)).sum := by
  simp only [ListRidesResponse.serialize, List.length_append, length_okCode, length_messages,
    List.map_map]
  rfl

/-- The coordinates alone take 18 bytes. -/
theorem le_bikeBytes {b : Bike} (hlat : b.lat ≠ .fin 0) (hlng : b.lng ≠ .fin 0) :
    20 ≤ bikeBytes b := by
  have hhead := length_varint_pos (BikeInfo.ofBike b).serialize.length
  have hbody : 18 ≤ (BikeInfo.ofBike b).serialize.length := by
    have hlat' : (doubleField 2 (BikeInfo.ofBike b).lat).length = 9 := by
      rw [doubleField, length_double (by decide), if_neg]
      exact fun h => hlat (of_decide_eq_true h)
    have hlng' : (doubleField 3 (BikeInfo.ofBike b).lng).length = 9 := by
      rw [doubleField, length_double (by decide), if_neg]
      exact fun h => hlng (of_decide_eq_true h)
    simp only [BikeInfo.serialize, List.length_append]
    omega
  rw [bikeBytes, length_delimited (by decide)]
  omega

theorem size_ride (P : Platform) (ride : Ride) (points : List RidePoint) :
    (GetRideDetailResponse.mk ErrCode.ok.code ride.rideNo ride.durationSec ride.distanceM
      ride.amountCent (P.fmtIso ride.startTs) (P.fmtIso ride.endTs)
      (points.map fun p => ⟨p.lat, p.lng, p.elapsedSec⟩)).serialize.length =
      rideBytes P ride + (points.map pointBytes).sum := by
  simp only [rideBytes, GetRideDetailResponse.serialize, List.length_append, length_messages,
    List.map_map, List.map_nil, List.sum_nil, Nat.add_zero]
  rfl

namespace World

variable {env : Env} {w : World P .production} {α : Type}

/-- The bikes in a box, as they are read. -/
def bikesFound (env : Env) (w : World P .production) (latMin latMax lngMin lngMax : Double) :
    List Bike :=
  if env.fails .bikesSelect then []
  else ((w.repos.tables.bikesInBox latMin latMax lngMin lngMax).getD []).map (Mysql.rowToBike P)

/-- The bikes in the circle of a search. -/
def bikesAround (env : Env) (w : World P .production) (req : ListNearbyBikesRequest) :
    List Bike :=
  let r := clampRadius req.radiusM
  let (latMin, latMax, lngMin, lngMax) := P.searchBox req.lat req.lng r
  (w.bikesFound env latMin latMax lngMin lngMax).filter fun b =>
    (P.haversineM req.lat req.lng b.lat b.lng).le r

/-- The rides of a user that a listing reads. -/
def ridesFound (env : Env) (w : World P .production) (uid limit : Int32) : List Ride :=
  if env.fails .ridesSelect then []
  else ((w.repos.tables.ridesOf uid).take
    ((limitLeft uid limit).most (w.repos.tables.ridesOf uid).length)).map (Mysql.rowToRide P)

/-- What the request asks for takes no more bytes than a message may have. The
rides of a user are counted where the query has lost its limit. -/
def Fits (env : Env) (w : World P .production) : Request → Prop
  | .listNearbyBikes _ (some req) =>
    ∀ uid, w.holder env req.sessionToken = some uid → validLat req.lat = true →
      validLng req.lng = true →
      3 + ((w.bikesAround env req).map bikeBytes).sum ≤ kMaxMessageLen
  | .getRideDetail (some req) =>
    ∀ uid ride, w.holder env req.sessionToken = some uid →
      w.rideFound env req.rideNo = some ride → ride.userId = uid →
      rideBytes P ride + ((w.pointsFound env ride.id).map pointBytes).sum ≤ kMaxMessageLen
  | .listRides (some req) =>
    ∀ uid, w.holder env req.sessionToken = some uid → uid.toInt ≤ -10 ^ 9 →
      3 + ((w.ridesFound env uid (clampLimit req.limit)).map (summaryBytes P)).sum ≤
        kMaxMessageLen
  | _ => True

theorem exec_listInBounds (latMin latMax lngMin lngMax : Double) :
    World.exec env (.repo (.listInBounds latMin latMax lngMin lngMax)) w =
      (w.bikesFound env latMin latMax lngMin lngMax, w) := by
  simp only [World.exec, Deployment.exec, Production.exec_listInBounds, bikesFound]

/-- What bounded answers lead to is what a run ends with. -/
theorem run_gives {p : Calls α} {Q : α → Prop} (hdrawn : env.Drawn) (hsized : w.repos.tables.Sized)
    (h : p.Gives (Call.bounded env.now) Q) :
    Q (World.run env p w).1 :=
  h.run (I := fun w : World P .production => w.repos.tables.Sized)
    (fun c _ hw => exec_bounded hdrawn hw c) hsized

theorem sized_requireUser (h : w.repos.tables.Sized) (token : String) :
    (World.run env (requireUser token) w).2.repos.tables.Sized where
  bike := by
    rw [show _ = w.repos.tables.bike from sameIn_requireUser env token w (T := .bike) (by simp)]
    exact h.bike
  ride := by
    rw [show _ = w.repos.tables.ride from sameIn_requireUser env token w (T := .ride) (by simp)]
    exact h.ride

/-- A search that is answered: the bikes that were found, and new ones where
there were few. -/
theorem run_listNearbyBikes (hdrawn : env.Drawn) (hsized : w.repos.tables.Sized)
    (draws : SpawnDraws) {req : ListNearbyBikesRequest}
    (huid : w.holder env req.sessionToken = some uid) (hlat : validLat req.lat = true)
    (hlng : validLng req.lng = true) :
    ∃ spawned, (World.run env (listNearbyBikes P draws (some req)) w).1 =
        .ok ⟨ErrCode.ok.code, (w.bikesAround env req ++ spawned).map .ofBike⟩ ∧
      spawned.length ≤ 12 ∧ (∀ b ∈ spawned, b.bikeNo.length ≤ 32) ∧
      (5 ≤ (w.bikesAround env req).length → spawned = []) := by
  set w₁ := (World.run env (requireUser req.sessionToken) w).2 with hw₁
  have haround : w₁.bikesAround env req = w.bikesAround env req := by
    simp only [bikesAround, bikesFound, Tables.bikesInBox,
      show w₁.repos.tables.bike = w.repos.tables.bike from
        sameIn_requireUser env req.sessionToken w (T := .bike) (by simp)]
  have hsized₁ : w₁.repos.tables.Sized := sized_requireUser hsized req.sessionToken
  have hvalid : (!validLat req.lat || !validLng req.lng) = false := by simp [hlat, hlng]
  simp only [listNearbyBikes, run_user, huid, ← hw₁, hvalid, Bool.false_eq_true, if_false]
  simp only [World.run, repo, Prog.ask_bind, Prog.run_call, exec_listInBounds]
  rw [← haround]
  split
  next hfew =>
    have hspawn := run_gives hdrawn hsized₁
      (spawnBikes_ends P draws (kSpawnTarget - (w₁.bikesAround env req).length) req.lat req.lng
        (clampRadius req.radiusM) (kSpawnTarget - (w₁.bikesAround env req).length))
    refine ⟨_, by rw [Prog.run_bind]; rfl, hspawn.1.trans (Nat.sub_le ..), hspawn.2, ?_⟩
    intro hmany
    exact absurd hfew (Nat.not_lt.mpr hmany)
  · exact ⟨[], rfl, Nat.zero_le _,
      fun _ hmem => absurd hmem List.not_mem_nil, fun _ => rfl⟩

/-! ## Replies -/

/-- There is a frame to send, no part of the way drops it, and the client takes
it for the answer to the request. -/
def Replied (r : Request) (out : Outcome Bytes) : Prop :=
  ∃ bytes f, out = .ok bytes ∧ bytes ≠ [] ∧ decodeFrame bytes = .ok f bytes.length ∧
    f.payload.length ≤ kMaxMessageLen ∧ isKnownResponse f.eventId = true ∧
    rspToReq f.eventId = r.eventId

theorem replied_encode_iff {payload : Bytes} (hknown : isKnownResponse eventId = true)
    (hback : rspToReq eventId = r.eventId) :
    Replied r (encode ⟨eventId, 0, payload⟩) ↔ payload.length ≤ kMaxMessageLen := by
  constructor
  · rintro ⟨bytes, f, hencode, -⟩
    exact (layout_of_encode hencode).fits
  · intro hfits
    have hencode := encode_eq (f := ⟨eventId, 0, payload⟩) hfits
    have hlayout := layout_of_encode hencode
    refine ⟨_, _, hencode, ?_, decodeFrame_of_layout hlayout, hfits, hknown, hback⟩
    intro hnil
    have hwhole := hlayout.whole
    rw [hnil] at hwhole
    exact absurd hwhole (by decide)

theorem respond_of_run {d : Deployment} {w : World P d} {h : Calls (Outcome α)} {f : α → Reply}
    {serialize : α → Bytes} {res : α} (hdispatch : dispatch P r = answer h f)
    (hmessage : ∀ res, (f res).message = some (eventId, serialize res))
    (hrun : (World.run env h w).1 = .ok res) :
    w.respond env r = encode ⟨eventId, 0, serialize res⟩ := by
  rw [World.respond, hdispatch, World.run, run_answer, ← World.run, hrun]
  simp only [Except.map, Except.bind, Reply.encode, hmessage]

/-- A handler answers the request, with messages that the client takes for its answers. -/
def AnsweredBy (P : Platform) (r : Request) (h : Calls (Outcome α)) (serialize : α → Bytes) :
    Prop :=
  ∃ (f : α → Reply) (eventId : UInt16), dispatch P r = answer h f ∧
    (∀ res, (f res).message = some (eventId, serialize res)) ∧
    isKnownResponse eventId = true ∧ rspToReq eventId = r.eventId

/-- A handler that ends with a message replies when the message is short enough. -/
theorem replied_iff_of_run {h : Calls (Outcome α)} {serialize : α → Bytes} {res : α}
    (hanswered : AnsweredBy P r h serialize) (hrun : (World.run env h w).1 = .ok res) :
    Replied r (w.respond env r) ↔ (serialize res).length ≤ kMaxMessageLen := by
  obtain ⟨f, eventId, hdispatch, hmessage, hknown, hback⟩ := hanswered
  rw [respond_of_run hdispatch hmessage hrun, replied_encode_iff hknown hback]

theorem replied_of_ends {h : Calls (Outcome α)} {serialize : α → Bytes} {n : Nat}
    (hdrawn : env.Drawn) (hsized : w.repos.tables.Sized)
    (hends : h.Gives (Call.bounded env.now) (Ends serialize n))
    (hanswered : AnsweredBy P r h serialize) (hn : n ≤ kMaxMessageLen) :
    Replied r (w.respond env r) := by
  obtain ⟨res, hres, hsize⟩ := run_gives hdrawn hsized hends
  exact (replied_iff_of_run hanswered hres).mpr (hsize.trans hn)

theorem bikeNo_around (hsized : w.repos.tables.Sized) (req : ListNearbyBikesRequest) :
    ∀ b ∈ w.bikesAround env req, b.bikeNo.length ≤ 32 := by
  intro b hb
  simp only [bikesAround, bikesFound] at hb
  have hfound := List.mem_of_mem_filter hb
  split at hfound
  · cases hfound
  · obtain ⟨row, hrow, rfl⟩ := List.mem_map.mp hfound
    exact hsized.bike row (Tables.mem_bikesInBox hrow)

/-- The reply to a search whose bikes all have short numbers. -/
theorem size_bikes_le {code : Int32} {bikes : List Bike} (h : ∀ b ∈ bikes, b.bikeNo.length ≤ 32) :
    (ListNearbyBikesResponse.mk code (bikes.map .ofBike)).serialize.length ≤
      11 + bikes.length * 163 := by
  have hsize := ListNearbyBikesResponse.size_le (m := ⟨code, bikes.map .ofBike⟩) (by
    intro info hinfo
    obtain ⟨b, hb, rfl⟩ := List.mem_map.mp hinfo
    exact h b hb)
  simpa only [List.length_map] using hsize

theorem replied_listNearbyBikes_iff (hdrawn : env.Drawn) (hsized : w.repos.tables.Sized)
    (draws : SpawnDraws) (payload : Option ListNearbyBikesRequest) :
    Replied (.listNearbyBikes draws payload) (w.respond env (.listNearbyBikes draws payload)) ↔
      w.Fits env (.listNearbyBikes draws payload) := by
  have hby : AnsweredBy P (.listNearbyBikes draws payload) (listNearbyBikes P draws payload)
      ListNearbyBikesResponse.serialize := ⟨_, _, rfl, fun _ => rfl, rfl, rfl⟩
  have hempty : ∀ code : Int32,
      (ListNearbyBikesResponse.mk code []).serialize.length ≤ kMaxMessageLen := fun code =>
    (ListNearbyBikesResponse.size_le fun _ hmem => absurd hmem List.not_mem_nil).trans
      (by decide : 11 + 0 * 163 ≤ kMaxMessageLen)
  cases payload with
  | none => exact iff_of_true ((replied_iff_of_run hby rfl).mpr (hempty _)) trivial
  | some req =>
    cases huid : w.holder env req.sessionToken with
    | none =>
      refine iff_of_true ((replied_iff_of_run hby ?_).mpr (hempty ErrCode.unauthorized.code)) ?_
      · simp only [listNearbyBikes, run_user, huid]
        rfl
      · intro uid hsome
        rw [huid] at hsome
        cases hsome
    | some uid =>
      by_cases hvalid : validLat req.lat = true ∧ validLng req.lng = true
      · obtain ⟨spawned, hrun, hcount, hshort, hmany⟩ :=
          run_listNearbyBikes hdrawn hsized draws huid hvalid.1 hvalid.2
        have hfits : w.Fits env (.listNearbyBikes draws (some req)) ↔
            3 + ((w.bikesAround env req).map bikeBytes).sum ≤ kMaxMessageLen :=
          ⟨fun h => h uid huid hvalid.1 hvalid.2, fun h _ _ _ _ => h⟩
        refine (replied_iff_of_run hby hrun).trans ?_
        rw [hfits]
        by_cases hfive : 5 ≤ (w.bikesAround env req).length
        · rw [hmany hfive, List.append_nil, size_bikes]
        · -- few bikes, with those that are made now, are short either way
          have hnear : ∀ b ∈ w.bikesAround env req, b.bikeNo.length ≤ 32 :=
            bikeNo_around hsized req
          refine iff_of_true ((size_bikes_le ?_).trans ?_) ?_
          · intro b hb
            exact (List.mem_append.mp hb).elim (hnear b) (hshort b)
          · rw [List.length_append, kMaxMessageLen]
            omega
          · rw [← size_bikes]
            refine (size_bikes_le hnear).trans ?_
            rw [kMaxMessageLen]
            omega
      · refine iff_of_true ((replied_iff_of_run hby ?_).mpr (hempty ErrCode.invalidData.code)) ?_
        · have hinvalid : (!validLat req.lat || !validLng req.lng) = true := by
            rw [← Bool.not_and, Bool.not_eq_true', Bool.and_eq_false_iff]
            simpa only [not_and_or, Bool.not_eq_true] using hvalid
          simp only [listNearbyBikes, run_user, huid, hinvalid, if_true]
          rfl
        · intro _ _ hlat hlng
          exact absurd ⟨hlat, hlng⟩ hvalid

theorem replied_getRideDetail_iff (payload : Option GetRideDetailRequest) :
    Replied (.getRideDetail payload) (w.respond env (.getRideDetail payload)) ↔
      w.Fits env (.getRideDetail payload) := by
  have hby : AnsweredBy P (.getRideDetail payload) (getRideDetail P payload)
      GetRideDetailResponse.serialize := ⟨_, _, rfl, fun _ => rfl, rfl, rfl⟩
  have hfail : ∀ ec, (GetRideDetailResponse.fail ec).serialize.length ≤ kMaxMessageLen := fun ec =>
    (GetRideDetailResponse.size_le (Nat.zero_le _) (Nat.zero_le _) (Nat.zero_le _)).trans
      (by decide : 299 + 0 * 31 ≤ kMaxMessageLen)
  cases payload with
  | none => exact iff_of_true ((replied_iff_of_run hby rfl).mpr (hfail .invalidMsg)) trivial
  | some req =>
    cases huid : w.holder env req.sessionToken with
    | none =>
      refine iff_of_true ((replied_iff_of_run hby ?_).mpr (hfail .unauthorized)) ?_
      · simp only [getRideDetail, run_user, huid]
        rfl
      · intro uid ride hsome
        rw [huid] at hsome
        cases hsome
    | some uid =>
      refine (replied_iff_of_run hby (run_getRideDetail huid)).trans ?_
      rw [detailFor]
      cases hride : w.rideFound env req.rideNo with
      | none =>
        refine iff_of_true (hfail .invalidData) ?_
        intro uid ride _ hsome
        rw [hride] at hsome
        cases hsome
      | some ride =>
        have hsame : ∀ {uid' ride'}, w.holder env req.sessionToken = some uid' →
            w.rideFound env req.rideNo = some ride' → uid' = uid ∧ ride' = ride := by
          intro uid' ride' huid' hride'
          exact ⟨Option.some.inj (huid'.symm.trans huid), Option.some.inj (hride'.symm.trans hride)⟩
        by_cases howner : ride.userId ≠ uid
        · simp only [if_pos howner]
          refine iff_of_true (hfail .unauthorized) ?_
          intro uid' ride' huid' hride' howner'
          obtain ⟨rfl, rfl⟩ := hsame huid' hride'
          exact absurd howner' howner
        · simp only [if_neg howner, size_ride]
          refine ⟨?_, fun h => h uid ride huid hride (not_not.mp howner)⟩
          intro h uid' ride' huid' hride' _
          obtain ⟨rfl, rfl⟩ := hsame huid' hride'
          exact h

theorem exec_listByUser (uid limit : Int32) :
    World.exec env (.repo (.listByUser uid limit)) w = (w.ridesFound env uid limit, w) := by
  simp only [World.exec, Deployment.exec, Production.exec_listByUser, ridesFound]

theorem run_listRides {req : ListRidesRequest} (huid : w.holder env req.sessionToken = some uid) :
    (World.run env (listRides P (some req)) w).1 =
      .ok ⟨ErrCode.ok.code, (w.ridesFound env uid (clampLimit req.limit)).map fun r =>
        ⟨r.rideNo, P.fmtIso r.startTs, r.durationSec, r.distanceM, r.amountCent⟩⟩ := by
  set w₁ := (World.run env (requireUser req.sessionToken) w).2 with hw₁
  have hfound : w₁.ridesFound env uid (clampLimit req.limit) =
      w.ridesFound env uid (clampLimit req.limit) := by
    simp only [ridesFound, Tables.ridesOf, show w₁.repos.tables.ride = w.repos.tables.ride from
      sameIn_requireUser env req.sessionToken w (T := .ride) (by simp)]
  simp only [listRides, run_user, huid, ← hw₁]
  simp only [World.run, repo, Prog.ask_bind, Prog.run_call, exec_listByUser, hfound]
  rfl

/-- A query that has kept its limit, or a part of it, finds few rides. -/
theorem length_ridesFound_le (hkept : -10 ^ 9 < uid.toInt) (limit : Int32) :
    (w.ridesFound env uid (clampLimit limit)).length ≤ 100 := by
  unfold ridesFound
  split
  · exact Nat.zero_le _
  · rw [List.length_map]
    refine (List.length_take_le ..).trans ?_
    cases hleft : limitLeft uid (clampLimit limit) with
    | absent => exact absurd (limitLeft_eq_absent_iff.mp hleft) (Int.not_le.mpr hkept)
    | rows n =>
      have hlimit := (clampLimit_bounds limit).2
      exact (Nat.min_le_left ..).trans ((le_of_limitLeft hleft).trans (by omega))
    | broken => exact Nat.zero_le _

theorem rideNo_ridesFound (hsized : w.repos.tables.Sized) (uid limit : Int32) :
    ∀ ride ∈ w.ridesFound env uid limit, ride.rideNo.length ≤ 32 := by
  intro ride hride
  unfold ridesFound at hride
  split at hride
  · cases hride
  · obtain ⟨row, hrow, rfl⟩ := List.mem_map.mp hride
    exact hsized.ride row (Tables.mem_ridesOf (List.mem_of_mem_take hrow))

theorem replied_listRides_iff (hiso : P.IsoFits) (hsized : w.repos.tables.Sized)
    (payload : Option ListRidesRequest) :
    Replied (.listRides payload) (w.respond env (.listRides payload)) ↔
      w.Fits env (.listRides payload) := by
  have hby : AnsweredBy P (.listRides payload) (listRides P payload)
      ListRidesResponse.serialize := ⟨_, _, rfl, fun _ => rfl, rfl, rfl⟩
  have hempty : ∀ code : Int32, (ListRidesResponse.mk code []).serialize.length ≤ kMaxMessageLen :=
    fun code => (ListRidesResponse.size_le (Nat.zero_le _)
      fun _ hmem => absurd hmem List.not_mem_nil).trans (by decide)
  cases payload with
  | none => exact iff_of_true ((replied_iff_of_run hby rfl).mpr (hempty _)) trivial
  | some req =>
    cases huid : w.holder env req.sessionToken with
    | none =>
      refine iff_of_true ((replied_iff_of_run hby ?_).mpr (hempty ErrCode.unauthorized.code)) ?_
      · simp only [listRides, run_user, huid]
        rfl
      · intro uid hsome
        rw [huid] at hsome
        cases hsome
    | some uid =>
      refine (replied_iff_of_run hby (run_listRides huid)).trans ?_
      by_cases hlost : uid.toInt ≤ -10 ^ 9
      · rw [size_rides]
        refine ⟨?_, fun h => h uid huid hlost⟩
        intro h uid' huid' _
        obtain rfl := Option.some.inj (huid'.symm.trans huid)
        exact h
      · refine iff_of_true ?_ ?_
        · refine (ListRidesResponse.size_le ?_ ?_).trans (by decide)
          · rw [List.length_map]
            exact length_ridesFound_le (Int.not_le.mp hlost) req.limit
          · intro r hr
            obtain ⟨ride, hride, rfl⟩ := List.mem_map.mp hr
            exact ⟨rideNo_ridesFound hsized uid _ ride hride, hiso _⟩
        · intro uid' huid' hlost'
          obtain rfl := Option.some.inj (huid'.symm.trans huid)
          exact absurd hlost' hlost

/-- A two-way request gets its reply exactly when what it asks for fits into a message. -/
theorem replied_iff (hiso : P.IsoFits) (hdrawn : env.Drawn) (hsized : w.repos.tables.Sized)
    {r : Request} (htwo : r.eventId ≠ ridePositionReport) :
    Replied r (w.respond env r) ↔ w.Fits env r := by
  cases r with
  | listNearbyBikes draws payload => exact replied_listNearbyBikes_iff hdrawn hsized draws payload
  | getRideDetail payload => exact replied_getRideDetail_iff payload
  | positionReport payload => exact absurd rfl htwo
  | mobileCode payload =>
    exact iff_of_true (replied_of_ends hdrawn hsized (mobileCode_ends payload)
      ⟨_, _, rfl, fun _ => rfl, rfl, rfl⟩ (by decide)) trivial
  | login payload =>
    exact iff_of_true (replied_of_ends hdrawn hsized (login_ends payload)
      ⟨_, _, rfl, fun _ => rfl, rfl, rfl⟩ (by decide)) trivial
  | recharge payload =>
    exact iff_of_true (replied_of_ends hdrawn hsized (recharge_ends payload)
      ⟨_, _, rfl, fun _ => rfl, rfl, rfl⟩ (by decide)) trivial
  | accountBalance payload =>
    exact iff_of_true (replied_of_ends hdrawn hsized (accountBalance_ends payload)
      ⟨_, _, rfl, fun _ => rfl, rfl, rfl⟩ (by decide)) trivial
  | listRecords payload =>
    exact iff_of_true (replied_of_ends hdrawn hsized (listRecords_ends payload)
      ⟨_, _, rfl, fun _ => rfl, rfl, rfl⟩ (by decide)) trivial
  | scanUnlock payload =>
    exact iff_of_true (replied_of_ends hdrawn hsized (scanUnlock_ends payload)
      ⟨_, _, rfl, fun _ => rfl, rfl, rfl⟩ (by decide)) trivial
  | endRide payload =>
    exact iff_of_true (replied_of_ends hdrawn hsized (endRide_ends P payload)
      ⟨_, _, rfl, fun _ => rfl, rfl, rfl⟩ (by decide)) trivial
  | reportDamage payload =>
    exact iff_of_true (replied_of_ends hdrawn hsized (reportDamage_ends payload)
      ⟨_, _, rfl, fun _ => rfl, rfl, rfl⟩ (by decide)) trivial
  | listRides payload => exact replied_listRides_iff hiso hsized payload

/-- A call with a token drawn. -/
def drawnEnv : Env := { Env.calm 200 with token := hexText 0 ++ hexText 0 }

def searchAt (place : Double) : ListNearbyBikesRequest := ⟨"token", place, place, .fin 500⟩

def search (place : Double) : Request :=
  .listNearbyBikes ⟨fun _ => (.fin 0, .fin 0), fun _ _ _ => 0⟩ (some (searchAt place))

theorem standstill_isoFits : Platform.standstill.IsoFits := fun _ => Nat.zero_le 31

/-- The search that finds the bike of the small database. -/
theorem replied_small :
    Replied (search (.fin 0))
      (World.respond drawnEnv (search (.fin 0))
        (⟨Production.small 1000 .idle, .empty⟩ : World .standstill .production)) :=
  (replied_iff standstill_isoFits ⟨0, 0, rfl⟩
    ⟨by decide, fun _ hmem => absurd hmem List.not_mem_nil⟩ (by decide)).mpr
    fun _ _ _ _ => by decide +kernel

/-! ## Too many bikes -/

/-- Bikes at one place, each with a letter for its number. -/
def crowdRows (n : Nat) : List BikeRow :=
  (List.range n).map fun i =>
    ⟨.ofNat (i + 1), String.ofList [Char.ofNat (0x4E00 + i)], 10000000, 10000000, .idle⟩

section Crowd

variable {n : Nat} (hn : n ≤ 20000)

include hn

theorem crowdRows_id : ((crowdRows n).map (·.id)).Nodup := by
  rw [crowdRows, List.map_map]
  refine List.Nodup.map_on ?_ List.nodup_range
  intro i hi j hj hij
  rw [List.mem_range] at hi hj
  have hint := congrArg Int32.toInt hij
  simp only [Function.comp_apply] at hint
  rw [Int32.toInt_ofNat_of_lt (by omega), Int32.toInt_ofNat_of_lt (by omega)] at hint
  omega

theorem crowdRows_no : ((crowdRows n).map (·.bikeNo)).Nodup := by
  have hletter : ∀ {i}, i < n → (Char.ofNat (0x4E00 + i)).toNat = 0x4E00 + i := by
    intro i hi
    have hvalid : (0x4E00 + i).isValidChar := Or.inl (by omega)
    rw [Char.ofNat, dif_pos hvalid]
    rfl
  rw [crowdRows, List.map_map]
  refine List.Nodup.map_on ?_ List.nodup_range
  intro i hi j hj hij
  have hchar := congrArg String.toList hij
  simp only [Function.comp_apply, String.toList_ofList, List.cons.injEq, and_true] at hchar
  have hnat := congrArg Char.toNat hchar
  rw [hletter (List.mem_range.mp hi), hletter (List.mem_range.mp hj)] at hnat
  omega

end Crowd

/-- The database with one user and many bikes. -/
def crowd (n : Nat) (hn : n ≤ 20000) : World .standstill .production where
  repos :=
    { Production.small 1000 .idle with
      tables :=
        { (Production.small 1000 .idle).tables with
          bike := crowdRows n
          bike_id := crowdRows_id hn
          bike_no := crowdRows_no hn
          ride_bike := fun _ hmem => absurd hmem List.not_mem_nil } }
  sessions := .empty

theorem crowd_sized (n : Nat) (hn : n ≤ 20000) : (crowd n hn).repos.tables.Sized := by
  refine ⟨?_, fun _ hmem => absurd hmem List.not_mem_nil⟩
  intro b hb
  obtain ⟨i, -, rfl⟩ := List.mem_map.mp hb
  rw [String.length_ofList]
  exact (by decide : 1 ≤ 32)

theorem crowd_around (n : Nat) (hn : n ≤ 20000) :
    (crowd n hn).bikesAround drawnEnv (searchAt (.fin 1)) =
      (crowdRows n).map (Mysql.rowToBike .standstill) := by
  have hbox : (crowd n hn).repos.tables.bikesInBox (.fin 1) (.fin 1) (.fin 1) (.fin 1) =
      some (crowdRows n) := by
    have hdec : (Double.fin 1).dec7 = some 10000000 := by decide +kernel
    simp only [Tables.bikesInBox, hdec, Option.bind_eq_bind, Option.bind_some]
    refine congrArg some (List.filter_eq_self.mpr ?_)
    intro b hb
    obtain ⟨i, -, rfl⟩ := List.mem_map.mp hb
    exact decide_eq_true ⟨by simp, by simp⟩
  have hfound : (crowd n hn).bikesFound drawnEnv (.fin 1) (.fin 1) (.fin 1) (.fin 1) =
      (crowdRows n).map (Mysql.rowToBike .standstill) := by
    rw [bikesFound, hbox]
    rfl
  rw [← hfound]
  refine List.filter_eq_self.mpr fun b _ => ?_
  show Double.le (.fin 0) (clampRadius (.fin 500)) = true
  decide +kernel

theorem crowd_bytes (n : Nat) :
    n * 20 ≤ (((crowdRows n).map (Mysql.rowToBike .standstill)).map bikeBytes).sum := by
  have hlength : (((crowdRows n).map (Mysql.rowToBike .standstill)).map bikeBytes).length = n := by
    rw [List.length_map, List.length_map, crowdRows, List.length_map, List.length_range]
  refine le_of_eq_of_le (by rw [hlength]; rfl) (List.card_nsmul_le_sum _ 20 ?_)
  intro size hsize
  obtain ⟨b, hb, rfl⟩ := List.mem_map.mp hsize
  obtain ⟨row, hrow, rfl⟩ := List.mem_map.mp hb
  obtain ⟨i, -, rfl⟩ := List.mem_map.mp hrow
  have hone : Platform.standstill.atof7 10000000 ≠ .fin 0 := by decide +kernel
  exact le_bikeBytes hone hone

/-- Nobody at that place gets an answer. -/
theorem crowd_unanswered :
    Platform.standstill.IsoFits ∧ drawnEnv.Drawn ∧ (crowd 20000 le_rfl).repos.tables.Sized ∧
      (crowd 20000 le_rfl).respond drawnEnv (search (.fin 1)) =
        .error "payload exceeds kMaxMessageLen" := by
  have hsized := crowd_sized 20000 le_rfl
  have huid : (crowd 20000 le_rfl).holder drawnEnv (searchAt (.fin 1)).sessionToken = some 1 := by
    rfl
  have haround := crowd_around 20000 le_rfl
  refine ⟨standstill_isoFits, ⟨0, 0, rfl⟩, hsized, ?_⟩
  obtain ⟨spawned, hrun, -, -, hmany⟩ := run_listNearbyBikes ⟨0, 0, rfl⟩ hsized
    ⟨fun _ => (.fin 0, .fin 0), fun _ _ _ => 0⟩ huid (by decide +kernel) (by decide +kernel)
  rw [haround] at hrun hmany
  have hcount : 5 ≤ ((crowdRows 20000).map (Mysql.rowToBike .standstill)).length := by
    rw [List.length_map, crowdRows, List.length_map, List.length_range]
    decide
  rw [hmany hcount, List.append_nil] at hrun
  have hlong : kMaxMessageLen < (ListNearbyBikesResponse.mk ErrCode.ok.code
      (((crowdRows 20000).map (Mysql.rowToBike .standstill)).map .ofBike)).serialize.length := by
    have hbytes := crowd_bytes 20000
    rw [size_bikes, kMaxMessageLen]
    omega
  rw [search, respond_of_run rfl (fun _ => rfl) hrun, encode, if_pos hlong]

end World

end SharedBike.Server
