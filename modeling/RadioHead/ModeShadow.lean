/-
The operating mode of the radio and `_mode`.

The mode setters write the operating mode register only if `_mode` is not
already the mode wanted, so `_mode` has to agree with the value written last.
Every operation keeps this agreement but one: `init` puts the radio to sleep
without setting `_mode`.  Where `_mode` is idle by then, the `setModeIdle` of
`init` writes nothing, and the radio stays asleep; and where `init` fails,
`_mode` stays what it was.

* `Logged` — a link that remembers the operating mode written last; what lies
  behind it may answer anything, and so raise any interrupt;
* `Shadow` — `_mode` agrees with it;
* `Happening`, `happen` — what can happen after the first `init`;
* `shadow_iff` — the runs whose every state is in agreement are those in which
  no further `init` meets one of the two cases above.
-/
import RadioHead.Lib.Run
import RadioHead.Radio
import RadioHead.Views

open Run

/-- A link that remembers the value last written to the operating mode
register. -/
structure Logged (σ : Type) where
  link : σ
  opMode : UInt8

instance {σ : Type} [HostLink σ] : HostLink (Logged σ) where
  uartAvailable l :=
    ((HostLink.uartAvailable l.link).1, { l with link := (HostLink.uartAvailable l.link).2 })
  uartRead l := ((HostLink.uartRead l.link).1, { l with link := (HostLink.uartRead l.link).2 })
  read reg l := ((HostLink.read reg l.link).1, { l with link := (HostLink.read reg l.link).2 })
  write reg val l :=
    { link := HostLink.write reg val l.link
      opMode := if reg = Reg.opMode then val else l.opMode }
  burstRead reg len l :=
    ((HostLink.burstRead reg len l.link).1,
      { l with link := (HostLink.burstRead reg len l.link).2 })
  burstWrite reg data l :=
    { link := HostLink.burstWrite reg data l.link
      opMode := if reg = Reg.opMode then data.headD l.opMode else l.opMode }

/-- The driver cannot tell whether the mode is remembered. -/
theorem Logged.link_view {σ : Type} [HostLink σ] : View (Logged.link (σ := σ)) where
  uartAvailable _ := rfl
  uartRead _ := rfl
  read _ _ := rfl
  write _ _ _ := rfl
  burstRead _ _ _ := rfl
  burstWrite _ _ _ := rfl

/-- `RH_RF95_MODE`: the mode bits of the operating mode register. -/
def modeMask : UInt8 := 0x07

namespace RF95

variable {σ : Type} [HostLink σ]

/-- The mode of the radio that a value of `_mode` stands for. -/
def radioMode : RHMode → Option UInt8
  | .initialising => none
  | .sleep => some modeSleep
  | .idle => some modeStdby
  | .tx => some modeTx
  | .rx => some modeRxContinuous

/-- `_mode` agrees with the value last written to the operating mode
register. -/
def Shadow (d : RF95 (Logged σ)) : Prop := radioMode d.mode = some (d.link.opMode &&& modeMask)

instance (d : RF95 (Logged σ)) : Decidable d.Shadow := inferInstanceAs (Decidable (_ = _))

/-! ### Operations -/

/-- An operation of the driver, or whatever happens behind the link between
two of them. -/
inductive Happening (σ : Type) where
  | operation (op : Operation)
  | elapse (link : σ)

def happen (d : RF95 (Logged σ)) : Happening σ → Option (RF95 (Logged σ))
  | .operation op => d.perform op
  | .elapse link => some { d with link := { d.link with link := link } }

/-- The radio confirms the sleep mode that `init` writes to it. -/
def Confirms (d : RF95 (Logged σ)) : Prop :=
  ((d.write Reg.opMode (modeSleep ||| longRangeMode)).read Reg.opMode).1
    = modeSleep ||| longRangeMode

instance (d : RF95 (Logged σ)) : Decidable d.Confirms := inferInstanceAs (Decidable (_ = _))

/-- A further `init` finds the driver in a mode from which it comes back in
agreement: not idle if the radio confirms, and asleep if it does not. -/
def Reinitialises (d : RF95 (Logged σ)) : Happening σ → Prop
  | .operation .init => if d.Confirms then d.mode ≠ .idle else d.mode = .sleep
  | _ => True

instance (d : RF95 (Logged σ)) : ∀ e, Decidable (d.Reinitialises e)
  | .operation .init =>
    inferInstanceAs (Decidable (if d.Confirms then d.mode ≠ .idle else d.mode = .sleep))
  | .operation .available | .operation (.recv _) | .operation (.send _ _)
  | .operation (.waitPacketSent _) | .operation .sleep | .operation .setModeIdle
  | .operation .setModeRx | .operation .setModeTx | .elapse _ => .isTrue trivial

/-! ### What each operation writes -/

omit [HostLink σ] in
/-- Only the mode and the value written count. -/
theorem Shadow.congr {d d' : RF95 (Logged σ)} (h : d.Shadow) (hmode : d'.mode = d.mode)
    (hop : d'.link.opMode = d.link.opMode) : d'.Shadow := by
  rw [Shadow, hmode, hop]
  exact h

@[simp] theorem read_opMode (d : RF95 (Logged σ)) (reg : UInt8) :
    (d.read reg).2.link.opMode = d.link.opMode := rfl

@[simp] theorem write_opMode (d : RF95 (Logged σ)) (val : UInt8) :
    (d.write Reg.opMode val).link.opMode = val := rfl

theorem write_other (d : RF95 (Logged σ)) {reg val : UInt8} (h : reg ≠ Reg.opMode) :
    (d.write reg val).link.opMode = d.link.opMode := if_neg h

/-- `setModeIdle` writes the register, or it holds the mode already. -/
theorem Shadow.setModeIdle {d : RF95 (Logged σ)} (h : d.Shadow) : d.setModeIdle.Shadow := by
  rw [RF95.setModeIdle]
  split_ifs
  · show radioMode .idle = some (modeStdby &&& modeMask)
    decide
  · exact h

theorem Shadow.sleep {d : RF95 (Logged σ)} (h : d.Shadow) : d.sleep.Shadow := by
  rw [RF95.sleep]
  split_ifs
  · show radioMode .sleep = some (modeSleep &&& modeMask)
    decide
  · exact h

theorem Shadow.setModeRx {d : RF95 (Logged σ)} (h : d.Shadow) : d.setModeRx.Shadow := by
  rw [RF95.setModeRx]
  split_ifs
  · show radioMode .rx = some (modeRxContinuous &&& modeMask)
    decide
  · exact h

theorem Shadow.setModeTx {d : RF95 (Logged σ)} (h : d.Shadow) : d.setModeTx.Shadow := by
  rw [RF95.setModeTx]
  split_ifs
  · show radioMode .tx = some (modeTx &&& modeMask)
    decide
  · exact h

/-- Every operation but `init` writes the register through the mode setters. -/
theorem shadow_stable : Stable (Shadow (σ := σ)) where
  uartAvailable h := h
  uartRead h := h
  read _ h := h
  write _ _ hop _ h := h.congr rfl (write_other _ hop)
  burstRead _ h := h
  burstWrite _ h := h.congr rfl rfl
  members _ hm h := h.congr hm rfl
  setModeIdle h := h.setModeIdle
  sleep h := h.sleep
  setModeRx h := h.setModeRx
  setModeTx h := h.setModeTx

/-! ### `init` -/

/-- The configuration that `init` ends with does not concern the mode. -/
theorem configure_shadow (d : RF95 (Logged σ)) :
    ((((d.setModemConfig .bw125Cr45Sf128).2.setPreambleLength 8).setFrequency
      868000000).setTxPower 13 false).Shadow ↔ d.Shadow := Iff.rfl

/-- What `init` does to a driver whose radio confirms. -/
theorem init_confirmed {d : RF95 (Logged σ)} (h : d.Confirms) :
    d.init.1 = true ∧ (d.init.2.Shadow ↔ d.mode ≠ .idle) := by
  have hinit : d.init = (true, (((((((d.write Reg.opMode (modeSleep ||| longRangeMode)).read
      Reg.opMode).2.write Reg.fifoTxBaseAddr 0).write Reg.fifoRxBaseAddr 0).setModeIdle
        |>.setModemConfig .bw125Cr45Sf128).2.setPreambleLength 8).setFrequency
          868000000).setTxPower 13 false) := by
    rw [Confirms] at h
    simp only [init, h, ne_eq, not_true_eq_false, if_false]
  rw [hinit, configure_shadow, setModeIdle]
  refine ⟨rfl, ?_⟩
  split_ifs with hidle
  · refine iff_of_true ?_ hidle
    show radioMode .idle = some (modeStdby &&& modeMask)
    decide
  · refine iff_of_false ?_ hidle
    -- the radio sleeps, and `_mode` says idle
    show radioMode d.mode ≠ some ((modeSleep ||| longRangeMode) &&& modeMask)
    rw [show d.mode = .idle from not_not.mp hidle]
    decide

/-- What `init` does to a driver whose radio does not. -/
theorem init_unconfirmed {d : RF95 (Logged σ)} (h : ¬ d.Confirms) :
    d.init.1 = false ∧ (d.init.2.Shadow ↔ d.mode = .sleep) := by
  have hinit : d.init = (false, ((((d.write Reg.opMode (modeSleep ||| longRangeMode)).read
      Reg.opMode).2).read Reg.opMode).2) := by
    rw [Confirms] at h
    simp only [init, ne_eq, h, not_false_eq_true, if_true]
  rw [hinit, Shadow]
  refine ⟨rfl, ?_⟩
  simp only [read_members, write_members, read_opMode, write_opMode]
  cases d.mode <;> decide

/-! ### Runs -/

/-- The mode setters leave the radio in the mode they are named after, and
`send`, once it has waited, loads the FIFO of a radio on standby. -/
structure Obeyed (d : RF95 (Logged σ)) : Prop where
  setModeIdle : d.setModeIdle.link.opMode &&& modeMask = modeStdby
  sleep : d.sleep.link.opMode &&& modeMask = modeSleep
  setModeRx : d.setModeRx.link.opMode &&& modeMask = modeRxContinuous
  setModeTx : d.setModeTx.link.opMode &&& modeMask = modeTx
  load : ∀ rounds d', d.waitPacketSent rounds = some d' →
    d'.setModeIdle.link.opMode &&& modeMask = modeStdby

omit [HostLink σ] in
theorem Shadow.opMode {d : RF95 (Logged σ)} (h : d.Shadow) {m : RHMode} (hmode : d.mode = m)
    {v : UInt8} (hv : radioMode m = some v) : d.link.opMode &&& modeMask = v := by
  rw [Shadow, hmode, hv, Option.some_inj] at h
  exact h.symm

theorem setModeIdle_mode (d : RF95 (Logged σ)) : d.setModeIdle.mode = .idle := by
  rw [setModeIdle_members]

theorem Shadow.obeyed {d : RF95 (Logged σ)} (h : d.Shadow) : d.Obeyed where
  setModeIdle := h.setModeIdle.opMode (setModeIdle_mode d) rfl
  sleep := h.sleep.opMode (by rw [sleep_members]) rfl
  setModeRx := h.setModeRx.opMode (by rw [setModeRx_members]) rfl
  setModeTx := h.setModeTx.opMode (by rw [setModeTx_members]) rfl
  load := by
    intro rounds d' hd'
    exact (shadow_stable.waitPacketSent hd' h).setModeIdle.opMode (setModeIdle_mode d') rfl

/-- One step: a further `init` keeps the agreement in two cases, every other
operation always does. -/
theorem happen_shadow {d d' : RF95 (Logged σ)} {e : Happening σ} (h : d.Shadow)
    (hd' : d.happen e = some d') : d.Reinitialises e ↔ d'.Shadow := by
  cases e with
  | elapse link => exact iff_of_true trivial (Option.some.inj hd' ▸ h.congr rfl rfl)
  | operation op =>
    cases op with
    | init =>
      obtain rfl : d.init.2 = d' := Option.some.inj hd'
      rw [Reinitialises]
      split_ifs with hconf
      · exact (init_confirmed hconf).2.symm
      · exact (init_unconfirmed hconf).2.symm
    | available => exact iff_of_true trivial (Option.some.inj hd' ▸ shadow_stable.available h)
    | recv dest => exact iff_of_true trivial (Option.some.inj hd' ▸ shadow_stable.recv h dest)
    | send rounds data =>
      obtain ⟨r, hr, rfl⟩ := Option.map_eq_some_iff.mp hd'
      exact iff_of_true trivial (shadow_stable.send hr h)
    | waitPacketSent rounds => exact iff_of_true trivial (shadow_stable.waitPacketSent hd' h)
    | sleep => exact iff_of_true trivial (Option.some.inj hd' ▸ h.sleep)
    | setModeIdle => exact iff_of_true trivial (Option.some.inj hd' ▸ h.setModeIdle)
    | setModeRx => exact iff_of_true trivial (Option.some.inj hd' ▸ h.setModeRx)
    | setModeTx => exact iff_of_true trivial (Option.some.inj hd' ▸ h.setModeTx)

/-- An operation that does not return is not an `init`. -/
theorem happen_none {d : RF95 (Logged σ)} {e : Happening σ} (h : d.happen e = none) :
    d.Reinitialises e := by
  cases e with
  | elapse link => trivial
  | operation op =>
    cases op with
    | init => cases h
    | _ => trivial

/-- The first successful `init` leaves a driver in agreement. -/
theorem init_shadow {d : RF95 (Logged σ)} (hinit : d.init.1 = true) (hfirst : d.mode ≠ .idle) :
    d.init.2.Shadow := by
  have hconf : d.Confirms := by
    by_contra hconf
    rw [(init_unconfirmed hconf).1] at hinit
    cases hinit
  exact (init_confirmed hconf).2.mpr hfirst

/-- **`_mode` agrees with the radio in every state of a run of operations
exactly if every further `init` of the run finds the driver not idle and the
radio answering, or asleep and the radio not answering.**  In agreement, no
mode setter skips a write that the radio needs. -/
theorem shadow_iff (d : RF95 (Logged σ)) (hinit : d.init.1 = true) (hfirst : d.mode ≠ .idle)
    (es : List (Happening σ)) :
    AllSteps happen Reinitialises d.init.2 es ↔
      ∀ es' d', es' <+: es → run happen d.init.2 es' = some d' → d'.Shadow ∧ d'.Obeyed := by
  have hruns : AllSteps happen Reinitialises d.init.2 es ↔
      ∀ es' d', es' <+: es → run happen d.init.2 es' = some d' → d'.Shadow :=
    allSteps_iff_prefixes (fun _ _ _ (h : True) _ => h) (fun _ _ h => happen_none h)
      (fun _ _ _ _ h hd' => happen_shadow h hd') trivial (init_shadow hinit hfirst)
  rw [hruns]
  constructor
  · intro h es' d' hes' hd'
    exact ⟨h es' d' hes' hd', (h es' d' hes' hd').obeyed⟩
  · intro h es' d' hes' hd'
    exact (h es' d' hes' hd').1

/-- A driver as constructed, with a radio just reset. -/
def freshDriver : RF95 (Logged World) where
  toMembers := Members.constructed
  link := { link := World.powerUp [], opMode := 0 }

/-- A driver that is put to sleep and initialised again before it sends. -/
def sleepsBetween : List (Happening World) :=
  [.operation .sleep, .operation .init, .operation (.send 0 [0x61]), .operation .available]

theorem sleepsBetween_shadow :
    ∃ d', run happen freshDriver.init.2 sleepsBetween = some d' ∧ d'.Shadow ∧ d'.Obeyed := by
  refine ⟨_, rfl, ?_⟩
  exact (shadow_iff freshDriver (by decide) (by decide) sleepsBetween).mp (by decide +kernel)
    sleepsBetween _ List.prefix_rfl rfl

/-- `init` twice, both times with success: `_mode` is idle and the radio is
asleep, also when `send` loads its FIFO. -/
theorem init_twice_asleep :
    freshDriver.init.1 = true ∧ freshDriver.init.2.init.1 = true ∧
      (run happen freshDriver.init.2 [.operation .init]).map (fun d =>
        (d.mode, decide d.Shadow, d.setModeIdle.link.opMode,
          d.setModeIdle.link.link.radio.regs Reg.opMode))
        = some (.idle, false, modeSleep ||| longRangeMode, modeSleep ||| longRangeMode) := by
  decide +kernel

end RF95
