/-
How many octets `recv` copies.

`recv` copies `_bufLen - 4` octets or fewer, computed in `int` and stored in a
`uint8_t`: with a valid message in the buffer this is right as long as the
message has its four header octets.  The receiver keeps running while a
message waits to be collected, and a packet too short to have headers replaces
the length of that message without clearing its flag.

* `BufOk` — a valid message has its headers;
* `NoRunt` — a call fetches no packet of fewer than four octets over a message
  that waits to be collected;
* `safe_iff_noRunt` — exactly the calls with `NoRunt` keep `BufOk` and stay
  within both bounds; `runs_safe_iff` — over whole runs;
* `runt_overruns` — a run in which `recv` copies 254 octets.

Nothing is assumed about the link: the octets the accesses yield are any.
-/
import RadioHead.Radio

open Run Wire

namespace RF95

variable {σ : Type} [HostLink σ]

/-- A valid message has its header octets. -/
def BufOk (d : RF95 σ) : Prop := d.rxBufValid = true → 4 ≤ d.bufLen.toNat

omit [HostLink σ] in
theorem BufOk.of_received {d d' : RF95 σ} (h : BufOk d) (hd : d'.received = d.received) :
    BufOk d' := by
  rw [BufOk, received_congr Members.bufLen hd fun _ => rfl,
    received_congr Members.rxBufValid hd fun _ => rfl]
  exact h

/-- The length of the packet that `available` is about to fetch. -/
def nextLen (d : RF95 σ) : Option UInt8 :=
  if d.Fetches then some (d.flagsRead.read Reg.rxNbBytes).1 else none

omit [HostLink σ] in
/-- `validateRxBuf` keeps the length, and sets the flag only for a message
with headers. -/
theorem validateRxBuf_buf (d : RF95 σ) :
    d.validateRxBuf.bufLen = d.bufLen ∧
      (d.rxBufValid = true → d.validateRxBuf.rxBufValid = true) ∧
      (d.validateRxBuf.rxBufValid = true → d.rxBufValid = true ∨ 4 ≤ d.bufLen.toNat) := by
  rw [validateRxBuf]
  by_cases hlen : d.bufLen < 4
  · rw [if_pos hlen]
    exact ⟨rfl, id, .inl⟩
  · rw [if_neg hlen]
    by_cases hacc : accepts d.extractHeaders.toMembers
    · rw [if_pos hacc]
      exact ⟨rfl, fun _ => rfl, fun _ => .inr (Nat.not_lt.mp hlen)⟩
    · rw [if_neg hacc]
      exact ⟨rfl, id, .inl⟩

/-- What `available` does to the buffer, in terms of the packet it fetches. -/
theorem available_buf (d : RF95 σ) :
    match d.nextLen with
    | none => d.available.2.bufLen = d.bufLen ∧ d.available.2.rxBufValid = d.rxBufValid
    | some len => d.available.2.bufLen = len ∧
        (d.rxBufValid = true → d.available.2.rxBufValid = true) ∧
        (d.available.2.rxBufValid = true → d.rxBufValid = true ∨ 4 ≤ len.toNat) := by
  rw [nextLen]
  by_cases h : d.Fetches
  · rw [if_pos h, available_fetches h, setModeRx_members, write_members, handlePacket_members]
    exact validateRxBuf_buf d.flagsRead.fetchPacket
  · rw [if_neg h]
    exact ⟨received_congr Members.bufLen (available_still h) fun _ => rfl,
      received_congr Members.rxBufValid (available_still h) fun _ => rfl⟩

/-! ### The two bounds -/

/-- Without its headers the difference wraps around. -/
theorem clampLen_runt {len bufLen : UInt8} (h : bufLen.toNat < 4) :
    (clampLen len bufLen).toNat = bufLen.toNat + 252 := by
  rw [clampLen, headerLen, if_pos (by omega), UInt8.toNat_sub]
  simp only [UInt8.reduceToNat]
  omega

/-- The octets copied by a call of `recv` with a buffer stay within the
caller's length and within the packet. -/
def CopyOk (d : RF95 σ) (len : UInt8) : Prop :=
  ∀ data ∈ (d.recv (some len)).1,
    data.length ≤ len.toNat ∧ data.length + headerLen ≤ d.available.2.bufLen.toNat

/-- A call is safe: it leaves a valid message its headers, and if it is a call
of `recv`, it copies no more than it may. -/
def Safe (d : RF95 σ) (c : Call σ) : Prop :=
  (∀ d' ∈ d.step c, BufOk d') ∧ ∀ len, c = .recv (some len) → CopyOk d len

/-- The call does not fetch a packet without headers over a message that
waits.  A `recv` without a buffer throws both away. -/
def NoRunt (d : RF95 σ) : Call σ → Prop
  | .available => d.rxBufValid = true → ∀ len ∈ d.nextLen, 4 ≤ len.toNat
  | .recv (some _) => d.rxBufValid = true → ∀ len ∈ d.nextLen, 4 ≤ len.toNat
  | _ => True

/-- After `available` a valid message has its headers, exactly if no runt was
fetched over one. -/
theorem bufOk_available_iff {d : RF95 σ} (h : BufOk d) :
    BufOk d.available.2 ↔ (d.rxBufValid = true → ∀ len ∈ d.nextLen, 4 ≤ len.toNat) := by
  have hbuf := available_buf d
  rcases hn : d.nextLen with _ | len
  · rw [hn] at hbuf
    simp only [Option.not_mem_none, IsEmpty.forall_iff, implies_true, iff_true]
    intro hv
    rw [hbuf.1]
    exact h (hbuf.2 ▸ hv)
  · rw [hn] at hbuf
    obtain ⟨hlen, hset, hvalid⟩ := hbuf
    rw [BufOk, hlen]
    constructor
    · intro hok hv len' hlen'
      obtain rfl := Option.mem_some.mp hlen'
      exact hok (hset hv)
    · intro hok hv
      rcases hvalid hv with hold | hnew
      · exact hok hold len rfl
      · exact hnew

/-- If `available` returns false, no message waits or the driver is sending,
and nothing was fetched. -/
theorem available_false_bufOk {d : RF95 σ} (h : BufOk d) (hany : d.available.1 ≠ true) :
    BufOk d.available.2 := by
  by_cases htx : d.available.2.mode = .tx
  · exact h.of_received (available_still (not_fetches_tx (available_tx htx)))
  · rw [available_fst htx] at hany
    exact fun hv => absurd hv hany

/-- A call of `recv` with a buffer is safe, exactly if a valid message has its
headers after the call of `available` it makes. -/
theorem safe_recv_iff {d : RF95 σ} (len : UInt8) :
    Safe d (.recv (some len)) ↔ BufOk d.available.2 := by
  have hrecv := recv_eq d (some len)
  rw [Safe, step]
  by_cases hany : d.available.1 = true
  · rw [if_pos hany] at hrecv
    constructor
    · rintro ⟨-, hcopy⟩ -
      by_contra hrunt
      have hlen := (hcopy len rfl _ (by rw [hrecv]; rfl)).2
      rw [Option.elim_some, Mem.length_load, clampLen_runt (by omega)] at hlen
      omega
    · intro hok
      refine ⟨fun d' hd' hv => ?_, fun len' hlen' data hdata => ?_⟩
      · rw [← Option.some.inj hd', hrecv] at hv
        cases hv
      · cases hlen'
        rw [hrecv] at hdata
        have hlen := hok (available_valid hany)
        rw [← Option.some.inj hdata, Option.elim_some, Mem.length_load, clampLen_toNat hlen,
          headerLen]
        omega
  · rw [if_neg hany] at hrecv
    rw [hrecv]
    refine ⟨fun h => h.1 _ rfl, fun hok => ⟨fun d' hd' => ?_, fun len' hlen' data hdata => ?_⟩⟩
    · exact Option.some.inj hd' ▸ hok
    · cases hlen'
      rw [hrecv] at hdata
      cases hdata

/-- **A call is safe, exactly if it fetches no runt over a waiting message.** -/
theorem safe_iff_noRunt {d : RF95 σ} (h : BufOk d) (c : Call σ) : Safe d c ↔ NoRunt d c := by
  -- the calls that fetch nothing keep the buffer as it is
  have hquiet : (∀ len, c ≠ .recv (some len)) → NoRunt d c →
      (∀ d' ∈ d.step c, BufOk d') → (Safe d c ↔ NoRunt d c) := fun hc hno hok =>
    iff_of_true ⟨hok, fun len hlen => absurd hlen (hc len)⟩ hno
  cases c with
  | available =>
    rw [NoRunt, ← bufOk_available_iff h]
    exact ⟨fun hs => hs.1 _ rfl,
      fun hok => ⟨fun d' hd' => Option.some.inj hd' ▸ hok, fun len hlen => by cases hlen⟩⟩
  | recv dest =>
    cases dest with
    | some len => rw [safe_recv_iff, NoRunt, bufOk_available_iff h]
    | none =>
      refine hquiet (by simp) trivial fun d' hd' => ?_
      rw [← Option.some.inj hd', recv_eq]
      split_ifs with hany
      · exact fun hv => absurd hv (by simp [clearRxBuf])
      · exact available_false_bufOk h hany
  | send rounds data =>
    refine hquiet (by simp) trivial fun d' hd' => ?_
    obtain ⟨r, hr, rfl⟩ := Option.map_eq_some_iff.mp hd'
    exact h.of_received (send_still hr)
  | waitPacketSent rounds =>
    exact hquiet (by simp) trivial fun d' hd' => h.of_received (waitPacketSent_still hd')
  | sleep =>
    refine hquiet (by simp) trivial fun d' hd' => ?_
    rw [← Option.some.inj hd', BufOk, sleep_members]
    exact h
  | elapse link => exact hquiet (by simp) trivial fun d' hd' => Option.some.inj hd' ▸ h

/-- **The copies of a whole run stay within bounds, exactly if no call of the
run fetches a runt over a waiting message.** -/
theorem runs_safe_iff (d : RF95 σ) (hinit : d.init.1 = true) (hempty : d.rxBufValid = false)
    (cs : List (Call σ)) :
    AllSteps step Safe d.init.2 cs ↔ AllSteps step NoRunt d.init.2 cs := by
  refine allSteps_iff (fun d c h => safe_iff_noRunt h c)
    (fun d c d' _ hsafe hd' => hsafe.1 d' hd') ?_
  rw [BufOk, init_members hinit, hempty]
  exact fun h => absurd h (by simp)

/-- A driver whose radio receives a broadcast message before the second call of
`available`, and a packet of two octets before the third. -/
def runtDriver : RF95 World where
  toMembers := Members.constructed
  link := World.powerUp <| List.replicate 18 [] ++
    [[.packet ⟨[0xff, 2, 1, 0, 0x68], false, 0, by decide⟩, .notify]] ++
    List.replicate 11 [] ++ [[.packet ⟨[0x01, 0x02], false, 5, by decide⟩, .notify]]

/-- Two calls of `available`, and then `recv` into a buffer of 10 octets: 254
octets are copied into it. -/
theorem runt_overruns :
    runtDriver.init.1 = true ∧ runtDriver.rxBufValid = false ∧
      (run step runtDriver.init.2 [.available, .available]).bind
        (fun d => (d.recv (some 10)).1.map List.length) = some 254 := by
  decide +kernel

/-- The calls before the fatal one, both safe. -/
theorem runtDriver_safe_iff :
    AllSteps step Safe runtDriver.init.2 [.available, .available] ↔
      AllSteps step NoRunt runtDriver.init.2 [.available, .available] :=
  runs_safe_iff runtDriver (by decide +kernel) rfl _

end RF95
