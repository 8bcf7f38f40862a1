import ViamEthercat.Ethercat.BusRules
import ViamEthercat.Ethercat.MasterBus
import ViamEthercat.Proofs.Bringup

/-!
# `ViamEthercat.Proofs.BusSession`: a session keeps to the rules of the bus

A session of a master (open, configure, any cycles and transfers, close) makes its calls in the
order that `BusLine.rule` allows, whatever SOEM answers (`session_follows_bus_rules`). There is one
`_spec` for each function of the backend and of the master. It says which `BusLine` the calls lead
to, and what the backend knows of it (`SoemBackend.link`), both where the function returns and where
it throws.

`open` ends with the interface and the backend open, or with both closed (`openBus_spec`). Through
the phases of `configure` the bus is `Configuring`, and at their end it is `Wired`: it serves, and
SYNC0 is on where the configuration wants it. The cycles keep that (`InUse`), since OP is requested
on the way into the wait for it. `close` disarms and requests INIT before it drops the interface. A
start that throws leaves an interface that its destruction closes, with SYNC0 as it is.
-/

set_option autoImplicit false

namespace ViamEthercat

open Lib Lib.Talk SoemBackend BusLine

/-- What the rules and the backend both know of the interface. -/
structure Link where
  isOpen : Bool
  ctxSlaveCount : Nat
  dcCycleNs : UInt32

/-- The part of the backend that SOEM does not write. -/
def SoemBackend.link (b : SoemBackend) : Link := ⟨b.isOpen, b.ctxSlaveCount, b.dcCycleNs⟩

section
variable {dc : Bool} {l : BusLine} {b : SoemBackend} {k : Link} {text : SoemText}

/-- The bus is where it was, and so is the backend. -/
abbrev Stays (l : BusLine) (k : Link) : BusLine → SoemBackend → Prop :=
  fun l' b' => l' = l ∧ b'.link = k

theorem wp_soem {q : SoemCall} {Q : BusLine → SoemBackend → q.Value → Prop}
    {E : BusLine → SoemBackend → BusFailure → Prop} :
    wp (rule dc) (soem q) Q E l b ↔
      ∀ x : SoemAnswer q, ∃ l', rule dc l q x = some l' ∧ Q l' { b with ctx := x.2 } x.1 := by
  rw [soem, wp_bind, wp_ask]
  simp only [wp_bind, wp_modify, wp_pure]

theorem wp_require {p : Prop} [Decidable p] {what : String}
    {Q : BusLine → SoemBackend → Unit → Prop} {E : BusLine → SoemBackend → BusFailure → Prop}
    (hQ : p → Q l b ()) (hE : ¬ p → E l b (.bus (.base what))) :
    wp (rule dc) (Soem.require p what) Q E l b :=
  wp_ite hQ hE

/-- A read of the states, allowed on an open interface. -/
theorem wp_readState {Q : BusLine → SoemBackend → Unit → Prop}
    {E : BusLine → SoemBackend → BusFailure → Prop} (h : l.connected = true)
    (hQ : ∀ b', b'.link = b.link → Q l b' ()) : wp (rule dc) (soem .readState) Q E l b := by
  rw [wp_soem]
  intro x
  refine ⟨l, ?_, hQ _ rfl⟩
  simp only [rule, h, if_true]

theorem wp_writeState {slave state : UInt16} {Q : BusLine → SoemBackend → Unit → Prop}
    {E : BusLine → SoemBackend → BusFailure → Prop} {l' : BusLine}
    (h : l.request dc slave state = some l') (hQ : ∀ b', b'.link = b.link → Q l' b' ()) :
    wp (rule dc) (writeState slave state) Q E l b := by
  rw [writeState, wp_bind, wp_modify, wp_soem]
  intro x
  exact ⟨l', h, hQ _ rfl⟩

/-- A state that is written to all slaves, and then checked. -/
theorem wp_stateCheck {want : UInt16} {Q : BusLine → SoemBackend → UInt16 → Prop}
    {E : BusLine → SoemBackend → BusFailure → Prop} (h : l.connected = true)
    (hQ : ∀ b' state, b'.link = b.link →
      Q { l with confirmed := decide (want = l.requested.toSoemState ∧ state = want) } b' state) :
    wp (rule dc) (soem (.stateCheck 0 want)) Q E l b := by
  rw [wp_soem]
  intro x
  refine ⟨_, ?_, hQ _ x.1 rfl⟩
  simp only [rule, h, if_true]

/-- A part that leaves the bus as it is, and then the rest. -/
theorem wp_bind_stays {α β : Type} {x : Soem α} {f : α → Soem β}
    {Q : BusLine → SoemBackend → β → Prop} {E : BusLine → SoemBackend → BusFailure → Prop}
    (hx : wp (rule dc) x (fun l' b' _ => Stays l k l' b') (fun l' b' _ => Stays l k l' b') l b)
    (hE : ∀ b' e, b'.link = k → E l b' e)
    (hf : ∀ a b', b'.link = k → wp (rule dc) (f a) Q E l b') :
    wp (rule dc) (x >>= f) Q E l b := by
  rw [wp_bind]
  refine wp_mono hx (fun l' b' a hstays => ?_) fun l' b' e hstays => ?_
  · obtain ⟨rfl, hb'⟩ := hstays
    exact hf a b' hb'
  · obtain ⟨rfl, hb'⟩ := hstays
    exact hE b' e hb'

/-! ### `open` -/

theorem request_preOp (h : l.connected = true) :
    l.request dc 0 EcatState.preOp.toSoemState = some { l with
      requested := .preOp, confirmed := false, mapped := false, clocked := false } := by
  rw [request, if_neg fun h => absurd h.2.2 (by decide), if_neg (by decide), if_pos rfl, if_pos h]

/-- The interface is there, and SYNC0 is off. -/
structure Attached (isOpen : Bool) (l : BusLine) (b : SoemBackend) : Prop where
  connected : l.connected = true
  armed : l.armed = []
  link : b.link = ⟨isOpen, l.found, 0⟩

/-- The interface is not there, and the backend knows it. -/
def Dropped (l : BusLine) (b : SoemBackend) : Prop := l.connected = false ∧ b.isOpen = false

theorem failOpen_spec {what : SoemBackend → String} {Q : BusLine → SoemBackend → Unit → Prop}
    (h : l.connected = true) (hb : b.link.isOpen = false) :
    wp (rule dc) (failOpen what) Q (fun l b _ => Dropped l b) l b := by
  rw [failOpen, wp_bind, wp_get, wp_bind, wp_soem]
  intro x
  refine ⟨{ l with connected := false }, ?_, rfl, hb⟩
  simp only [rule, h, if_true]

theorem warmUp_spec {slave : UInt16} {tries : Nat} {last : Int} (h : l.connected = true)
    (hb : b.link = k) :
    wp (rule dc) (warmUp slave tries last) (fun l' b' _ => Stays l k l' b')
      (fun l b _ => Dropped l b) l b := by
  induction tries generalizing b last with
  | zero => exact ⟨rfl, hb⟩
  | succ tries ih =>
      rw [warmUp, wp_bind, wp_soem]
      intro x
      refine ⟨l, ?_, ?_⟩
      · simp only [rule, h, if_true]
      · exact wp_ite (fun _ => ⟨rfl, hb⟩) fun _ => ih hb

/-- A gate of `open` is passed, or the interface is dropped. -/
theorem gate_spec {p : Prop} [Decidable p] {what : SoemBackend → String} (h : l.connected = true)
    (hb : b.link = k) (hk : k.isOpen = false) :
    wp (rule dc) (whenever p do soem .readState; failOpen what) (fun l' b' _ => Stays l k l' b')
      (fun l b _ => Dropped l b) l b := by
  apply wp_whenever
  · intro _
    rw [wp_bind]
    exact wp_readState h fun b' hb' => failOpen_spec h (by rw [hb', hb, hk])
  · intro _
    exact ⟨rfl, hb⟩

theorem readyMailbox_spec {ifname : String} {slave : UInt16} (h : l.connected = true)
    (hb : b.link = k) (hk : k.isOpen = false) :
    wp (rule dc) (readyMailbox text ifname slave) (fun l' b' _ => Stays l k l' b')
      (fun l b _ => Dropped l b) l b := by
  rw [readyMailbox, wp_bind, wp_get]
  apply wp_whenever
  · intro _
    have hwritable : wp (rule dc) (awaitWritable text ifname slave)
        (fun l' b' _ => Stays l k l' b') (fun l b _ => Dropped l b) l b := by
      rw [awaitWritable, wp_bind, wp_soem]
      intro x
      refine ⟨l, ?_, gate_spec h ?_ hk⟩
      · simp only [rule, h, if_true]
      · exact hb
    rw [wp_bind]
    refine wp_mono hwritable (fun l' b' _ hstays => ?_) fun _ _ _ h => h
    obtain ⟨rfl, hlink⟩ := hstays
    rw [awaitHandler, wp_bind]
    refine wp_mono (warmUp_spec h hlink) (fun l'' b'' _ hstays => ?_) fun _ _ _ h => h
    obtain ⟨rfl, hlink'⟩ := hstays
    rw [wp_bind, wp_modify]
    refine gate_spec h ?_ hk
    exact hlink'
  · intro _
    exact ⟨rfl, hb⟩

theorem enumerate_spec {ifname : String} (h : l.connected = false) (hopen : b.isOpen = false)
    (hns : b.dcCycleNs = 0) :
    wp (rule dc) (enumerate ifname) (fun l b _ => Attached false l b)
      (fun l b _ => Dropped l b) l b := by
  rw [enumerate, wp_bind, wp_soem]
  intro x
  refine ⟨if 0 < x.1 then { connected := true } else l, ?_, ?_⟩
  · simp only [rule, h, Bool.false_eq_true, if_false]
  · rw [wp_bind]
    apply wp_require
    · intro hpos
      rw [if_pos hpos, wp_bind, wp_soem]
      intro found
      refine ⟨{ connected := true, found := found.1.slaveCount }, rfl, ?_⟩
      rw [wp_bind, wp_modify, wp_bind]
      apply wp_whenever
      · intro _
        exact failOpen_spec rfl hopen
      · intro _
        refine ⟨rfl, rfl, ?_⟩
        simp only [link, hopen, hns]
    · intro hneg
      rw [if_neg hneg]
      exact ⟨h, hopen⟩

theorem reachPreOp_spec {ifname : String} {count : Nat} (h : Attached false l b) :
    wp (rule dc) (reachPreOp text ifname count) (fun l b _ => Attached false l b)
      (fun l b _ => Dropped l b) l b := by
  obtain ⟨hconn, harmed, hlink⟩ := h
  rw [reachPreOp, wp_bind]
  refine wp_readState hconn fun b1 hb1 => ?_
  rw [wp_bind]
  refine wp_writeState (request_preOp hconn) fun b2 hb2 => ?_
  rw [wp_bind]
  refine wp_stateCheck hconn fun b3 state hb3 => ?_
  have hlink3 : b3.link = ⟨false, l.found, 0⟩ := by rw [hb3, hb2, hb1, hlink]
  rw [wp_bind]
  apply wp_whenever
  · intro _
    rw [wp_bind]
    refine wp_readState hconn fun b4 hb4 => failOpen_spec hconn ?_
    rw [hb4, hlink3]
  · intro _
    exact wp_readState hconn fun b4 hb4 => ⟨hconn, harmed, hb4.trans hlink3⟩

/-- `open` ends with the interface and the backend open, or with both closed. -/
theorem openBus_spec {ifname : String} (h : l.connected = false) (hopen : b.isOpen = false)
    (hns : b.dcCycleNs = 0) :
    wp (rule dc) (openBus text ifname) (fun l b _ => Attached true l b)
      (fun l b _ => Dropped l b) l b := by
  rw [openBus, wp_bind, wp_get, wp_bind]
  apply wp_require
  · intro _
    rw [wp_bind]
    refine wp_mono (enumerate_spec h hopen hns) (fun l b count hl => ?_) fun _ _ _ h => h
    rw [wp_bind]
    refine wp_mono (reachPreOp_spec hl) (fun l b _ hl => ?_) fun _ _ _ h => h
    rw [wp_bind]
    refine wp_mono (wp_forM (fun _ l b => Attached false l b) (everySlave count) hl ?_)
      (fun l b _ hl => ?_) fun _ _ _ h => h
    · intro _ slave _ l b _ hl
      refine wp_mono (readyMailbox_spec hl.connected hl.link rfl)
        (fun l' b' _ hstays => ?_) fun _ _ _ h => h
      obtain ⟨rfl, hlink⟩ := hstays
      exact ⟨hl.connected, hl.armed, hlink⟩
    · rw [wp_bind, wp_modify, wp_pure]
      refine ⟨hl.connected, hl.armed, ?_⟩
      have hlink := hl.link
      simp only [link, Link.mk.injEq] at hlink ⊢
      exact ⟨trivial, hlink.2⟩
  · intro _
    exact ⟨h, hopen⟩

/-! ### Downloads -/

theorem requireSlave_spec {op : String} {slave : UInt16}
    {Q : BusLine → SoemBackend → Unit → Prop} {E : BusLine → SoemBackend → BusFailure → Prop}
    (hQ : Q l b ()) (hE : ∀ e, E l b e) : wp (rule dc) (requireSlave op slave) Q E l b := by
  rw [requireSlave, wp_bind, wp_get]
  exact wp_require (fun _ => hQ) fun _ => hE _

theorem checkTransfer_spec {op : String} {slave index : UInt16} {sub : UInt8} {bytes : Nat}
    {wkc : Int} (hb : b.link = k) :
    wp (rule dc) (checkTransfer text op slave index sub bytes wkc)
      (fun l' b' _ => Stays l k l' b') (fun l' b' _ => Stays l k l' b') l b := by
  rw [checkTransfer, wp_bind, wp_get]
  exact wp_whenever (fun _ => ⟨rfl, hb⟩) fun _ => ⟨rfl, hb⟩

/-- A download leaves the bus and the backend as they are, however it ends. -/
theorem sdoWrite_spec (d : SdoDownload) (h : l.Writable ∨ l.Serving) (hb : b.link = k) :
    wp (rule dc) (SoemBackend.sdoWrite text d) (fun l' b' _ => Stays l k l' b')
      (fun l' b' _ => Stays l k l' b') l b := by
  rw [SoemBackend.sdoWrite, wp_bind]
  refine requireSlave_spec ?_ fun _ => ⟨rfl, hb⟩
  rw [wp_bind, wp_soem]
  intro x
  refine ⟨l, ?_, checkTransfer_spec ?_⟩
  · simp only [rule, h, if_true]
  · exact hb

theorem sdoRead_spec (slave index : UInt16) (sub : UInt8) (size : Nat) (h : l.connected = true)
    (hb : b.link = k) :
    wp (rule dc) (SoemBackend.sdoRead text slave index sub size) (fun l' b' _ => Stays l k l' b')
      (fun l' b' _ => Stays l k l' b') l b := by
  rw [SoemBackend.sdoRead, wp_bind]
  refine requireSlave_spec ?_ fun _ => ⟨rfl, hb⟩
  rw [wp_bind, wp_soem]
  intro x
  refine ⟨l, ?_, ?_⟩
  · simp only [rule, h, if_true]
  · rw [wp_bind]
    exact checkTransfer_spec hb

section
variable (h : l.Writable)
include h

theorem sdoWriteScalar_spec (d : SdoDownload) (hb : b.link = k) :
    wp (rule dc) (MasterBus.sdoWriteScalar text d) (fun l' b' _ => Stays l k l' b')
      (fun l' b' _ => Stays l k l' b') l b := by
  rw [MasterBus.sdoWriteScalar, wp_mapError]
  exact sdoWrite_spec d (.inl h) hb

/-- A loop of downloads. -/
theorem forM_spec {α : Type} (xs : List α) {f : α → Soem Unit} (hb : b.link = k)
    (hf : ∀ x b, b.link = k → wp (rule dc) (f x) (fun l' b' _ => Stays l k l' b')
      (fun l' b' _ => Stays l k l' b') l b) :
    wp (rule dc) (xs.forM f) (fun l' b' _ => Stays l k l' b')
      (fun l' b' _ => Stays l k l' b') l b := by
  refine wp_forM (fun _ l' b' => Stays l k l' b') xs ⟨rfl, hb⟩ fun _ x _ l' b' _ hstays => ?_
  obtain ⟨rfl, hb'⟩ := hstays
  exact hf x b' hb'

theorem applyPdo_spec (slave : UInt16) (m : PdoMap) (assignIndex pdo : UInt16)
    (hb : b.link = k) :
    wp (rule dc) (MasterBus.applyPdo text slave m assignIndex pdo)
      (fun l' b' _ => Stays l k l' b') (fun l' b' _ => Stays l k l' b') l b := by
  have hfail (b : SoemBackend) (_ : BusFailure) (hb : b.link = k) : Stays l k l b := ⟨rfl, hb⟩
  unfold MasterBus.applyPdo
  split
  · exact ⟨rfl, hb⟩
  · refine wp_ite (fun _ => ⟨rfl, hb⟩) fun _ => ?_
    refine wp_bind_stays (sdoWriteScalar_spec h _ hb) hfail fun _ b hb => ?_
    refine wp_bind_stays (forM_spec h _ hb fun _ b hb => sdoWriteScalar_spec h _ hb) hfail
      fun _ b hb => ?_
    exact sdoWriteScalar_spec h _ hb

theorem applyPdoMap_spec (slave : UInt16) (m : PdoMap) (dir : PdoDirection) (hb : b.link = k) :
    wp (rule dc) (MasterBus.applyPdoMap text slave m dir)
      (fun l' b' _ => Stays l k l' b') (fun l' b' _ => Stays l k l' b') l b := by
  have hfail (b : SoemBackend) (_ : BusFailure) (hb : b.link = k) : Stays l k l b := ⟨rfl, hb⟩
  rw [MasterBus.applyPdoMap]
  refine wp_bind_stays (sdoWriteScalar_spec h _ hb) hfail fun _ b hb => ?_
  refine wp_bind_stays (forM_spec h _ hb fun _ b hb => applyPdo_spec h _ _ _ _ hb) hfail
    fun _ b hb => ?_
  refine wp_bind_stays (wp_whenever (fun _ => ⟨rfl, hb⟩) fun _ => ⟨rfl, hb⟩) hfail fun _ b hb => ?_
  refine wp_bind_stays (forM_spec h _ hb fun _ b hb => sdoWriteScalar_spec h _ hb) hfail
    fun _ b hb => ?_
  exact sdoWriteScalar_spec h _ hb

theorem applyMaps_spec (maps : List MappedSlave) (hb : b.link = k) :
    wp (rule dc) (maps.forM (MasterBus.applyMaps text)) (fun l' b' _ => Stays l k l' b')
      (fun l' b' _ => Stays l k l' b') l b := by
  refine forM_spec h maps hb fun sc b hb => ?_
  rw [MasterBus.applyMaps]
  exact wp_bind_stays (applyPdoMap_spec h _ _ _ hb) (fun _ _ hb => ⟨rfl, hb⟩)
    fun _ b hb => applyPdoMap_spec h _ _ _ hb

end

/-! ### The phases of `configure` -/

theorem requestState_spec {target : EcatState} {l' : BusLine}
    (h : l.request dc 0 target.toSoemState = some l') (hconn : l'.connected = true)
    (hrequested : l'.requested = target) (hb : b.link = k) :
    wp (rule dc) (requestState text 0 target)
      (fun l b _ => Stays { l' with confirmed := true } k l b)
      (fun l b _ => l.connected = true ∧ b.link = k) l b := by
  rw [requestState, wp_bind]
  refine wp_writeState h fun b1 hb1 => ?_
  rw [wp_bind]
  refine wp_stateCheck hconn fun b2 state hb2 => ?_
  have hlink : b2.link = k := by rw [hb2, hb1, hb]
  apply wp_whenever
  · intro _
    rw [wp_bind]
    refine wp_readState hconn fun b3 hb3 => ?_
    rw [wp_bind, wp_get, wp_throw]
    exact ⟨hconn, hb3.trans hlink⟩
  · intro hreached
    refine ⟨?_, hlink⟩
    rw [hrequested, decide_eq_true ⟨rfl, not_not.mp hreached⟩]

theorem armDcSync_spec {ns : UInt32} {shift : Int32} (h : l.Writable) (harmed : l.armed = [])
    (hb : b.link = ⟨true, l.found, 0⟩) :
    wp (rule true) (armDcSync ns shift)
      (fun l' b' _ => Stays { l with armed := everySlave l.found } ⟨true, l.found, ns⟩ l' b')
      (fun l b _ => l.connected = b.isOpen) l b := by
  rw [armDcSync, wp_bind, wp_modify, wp_bind, wp_get]
  simp only [link, Link.mk.injEq] at hb
  rw [show b.ctxSlaveCount = l.found from hb.2.1]
  refine wp_forM (fun done l' b' =>
    Stays { l with armed := done } ⟨true, l.found, ns⟩ l' b') (everySlave l.found) ?_ ?_
  · rw [← harmed]
    refine ⟨rfl, ?_⟩
    simp only [link, hb.1]
  · intro done slave rest l' b' _ hstays
    obtain ⟨rfl, hb'⟩ := hstays
    rw [wp_soem]
    intro x
    have hwritable : ({ l with armed := done } : BusLine).Writable := h
    refine ⟨{ l with armed := done ++ [slave] }, ?_, rfl, hb'⟩
    simp only [rule, hwritable, true_and, if_true]

/-- SYNC0 goes off at every slave where it is on. -/
theorem disarm_spec {ns : UInt32} (h : l.connected = true) (hsync : l.Synced dc)
    (hns : ns = 0 ↔ dc = false) (hb : b.link = ⟨true, l.found, ns⟩)
    {E : BusLine → SoemBackend → BusFailure → Prop} :
    wp (rule dc) disarm (fun l' b' _ => Stays { l with armed := [] } ⟨true, l.found, 0⟩ l' b')
      E l b := by
  have hlink := hb
  simp only [link, Link.mk.injEq] at hlink
  obtain ⟨hopen, hfound, rfl⟩ := hlink
  rw [disarm, wp_bind, wp_get]
  apply wp_whenever
  · intro hne
    have hdc : dc = true := Bool.eq_true_of_not_eq_false fun hdc => hne (hns.mpr hdc)
    subst hdc
    rw [wp_bind, hfound]
    -- What is not yet off is at the end of the list.
    refine wp_mono (wp_forM (fun done l' b' => ∃ rest, everySlave l.found = done ++ rest ∧
      Stays { l with armed := rest } b.link l' b') (everySlave l.found) ?_ ?_)
      (fun l' b' _ hend => ?_) fun _ _ _ h => h
    · refine ⟨everySlave l.found, rfl, ?_, rfl⟩
      rw [← show l.armed = everySlave l.found from hsync]
    · rintro done slave rest l' b' hsplit ⟨left, hleft, rfl, hb'⟩
      obtain rfl : slave :: rest = left := List.append_cancel_left (hsplit.symm.trans hleft)
      rw [wp_soem]
      intro x
      refine ⟨{ l with armed := rest }, ?_, rest, ?_, rfl, hb'⟩
      · simp only [rule, h, if_true, List.erase_cons_head]
      · rw [hsplit, List.append_assoc, List.singleton_append]
    · obtain ⟨left, hleft, rfl, hb'⟩ := hend
      obtain rfl : left = [] := List.append_right_eq_self.mp hleft.symm
      rw [wp_modify]
      refine ⟨rfl, ?_⟩
      rw [hb] at hb'
      simp only [link, Link.mk.injEq] at hb' ⊢
      exact ⟨hb'.1, hb'.2.1, trivial⟩
  · intro hzero
    have hdc : dc = false := hns.mp (not_not.mp hzero)
    rw [Synced, hdc, if_neg Bool.false_ne_true] at hsync
    refine ⟨?_, ?_⟩
    · rw [← hsync]
    · rw [hb, not_not.mp hzero]

/-- The bus in the phases of `configure` from the arming of SYNC0 on. -/
structure Configuring (dc : Bool) (ns : UInt32) (mapped clocked : Bool) (l : BusLine)
    (b : SoemBackend) : Prop where
  inPreOp : l.InPreOp
  mapped : l.mapped = mapped
  clocked : l.clocked = clocked
  synced : l.Synced dc
  link : b.link = ⟨true, l.found, ns⟩

/-- The bus of a configured master: it serves, and SYNC0 is on where it should be. -/
structure Wired (dc : Bool) (ns : UInt32) (l : BusLine) (b : SoemBackend) : Prop where
  serving : l.Serving
  synced : l.Synced dc
  link : b.link = ⟨true, l.found, ns⟩

/-- The bus and the backend agree on whether the interface is open. -/
abbrev Agree (l : BusLine) (b : SoemBackend) : Prop := l.connected = b.isOpen

theorem agree_of_link {n : Nat} {ns : UInt32} (h : l.connected = true)
    (hb : b.link = ⟨true, n, ns⟩) : Agree l b := h.trans (congrArg Link.isOpen hb).symm

theorem preOpPhase_spec (h : Attached true l b) :
    wp (rule dc) (requestState text 0 .preOp)
      (fun l b _ => Attached true l b ∧ l.Writable ∧ l.clocked = false)
      (fun l b _ => Agree l b) l b := by
  obtain ⟨hconn, harmed, hlink⟩ := h
  refine wp_mono (requestState_spec (request_preOp hconn) hconn rfl hlink)
    (fun l' b' _ hl => ?_) fun _ _ _ h => agree_of_link h.1 h.2
  obtain ⟨rfl, hb⟩ := hl
  exact ⟨⟨hconn, harmed, hb⟩, ⟨⟨hconn, rfl, rfl⟩, rfl⟩, rfl⟩

theorem mapProcessData_spec {ns : UInt32} (h : Configuring dc ns false false l b) :
    wp (rule dc) mapProcessData (fun l b _ => Configuring dc ns true false l b)
      (fun l b _ => Agree l b) l b := by
  rw [mapProcessData, wp_bind, wp_soem]
  intro x
  have hwritable : l.Writable := ⟨h.inPreOp, h.mapped⟩
  refine ⟨{ l with mapped := true }, ?_, ?_⟩
  · simp only [rule, hwritable, h.synced, and_self, if_true]
  · rw [wp_bind]
    refine wp_whenever (fun _ => agree_of_link h.inPreOp.1 h.link) fun _ => ?_
    rw [wp_modify]
    exact ⟨h.inPreOp, rfl, h.clocked, h.synced, h.link⟩

theorem configureDcConfigdc_spec {ns : UInt32} (h : Configuring true ns true false l b) :
    wp (rule true) configureDcConfigdc (fun l b _ => Configuring true ns true true l b)
      (fun l b _ => Agree l b) l b := by
  rw [configureDcConfigdc, wp_bind, wp_soem]
  intro x
  refine ⟨{ l with clocked := x.1 }, ?_, ?_⟩
  · simp only [rule, h.inPreOp, h.mapped, and_self, if_true]
  · apply wp_require
    · intro hfound
      exact ⟨h.inPreOp, h.mapped, hfound, h.synced, h.link⟩
    · intro _
      exact agree_of_link h.inPreOp.1 h.link

theorem safeOpPhase_spec {ns : UInt32} (h : Configuring dc ns true dc l b) :
    wp (rule dc) (requestState text 0 .safeOp) (fun l b _ => Wired dc ns l b)
      (fun l b _ => Agree l b) l b := by
  have hrequest : l.request dc 0 EcatState.safeOp.toSoemState =
      some { l with requested := .safeOp, confirmed := false } := by
    rw [request, if_neg fun h => absurd h.2.2 (by decide), if_neg (by decide),
      if_neg (by decide), if_pos rfl, if_pos ⟨h.inPreOp, h.mapped, h.synced, h.clocked⟩]
  refine wp_mono (requestState_spec hrequest h.inPreOp.1 rfl h.link) (fun l' b' _ hl => ?_)
    fun _ _ _ h => agree_of_link h.1 h.2
  obtain ⟨rfl, hb⟩ := hl
  exact ⟨⟨h.inPreOp.1, .inl ⟨rfl, rfl⟩⟩, h.synced, hb⟩

end

/-! ### The master -/

section
variable {dc : Bool} {l : BusLine} {m : MasterBus} {text : SoemText} {cfg : BusConfig}

theorem wp_onBackend {α : Type} {x : Soem α} {Q : BusLine → MasterBus → α → Prop}
    {E : BusLine → MasterBus → BusFailure → Prop} :
    wp (rule dc) (Bus.onBackend x) Q E l m ↔
      wp (rule dc) x (fun l b a => Q l { m with backend := b } a)
        (fun l b e => E l { m with backend := b } e) l m.backend :=
  wp_zoom

/-- `cycle_ns` of `configure`, or none without distributed clocks. -/
def BusConfig.sync0Ns (cfg : BusConfig) : UInt32 :=
  if cfg.config.useDistributedClocks then MasterBus.cycleNs cfg else 0

theorem addSlaves_spec (maps : List MappedSlave) {ns : UInt32} {mapped clocked : Bool}
    (h : Configuring dc ns mapped clocked l m.backend) :
    wp (rule dc) (maps.forM MasterBus.addSlave)
      (fun l m _ => Configuring dc ns mapped clocked l m.backend)
      (fun l m _ => Agree l m.backend) l m := by
  refine wp_forM (fun _ l (m : MasterBus) => Configuring dc ns mapped clocked l m.backend) maps h ?_
  intro _ sc _ l m _ h
  rw [MasterBus.addSlave, wp_bind, wp_get, wp_bind]
  cases configureSlave { port := fun _ => none, slaves := m.backend.images } sc with
  | error e => exact agree_of_link h.inPreOp.1 h.link
  | ok rt => exact h

theorem armPhase_spec (h : Attached true l m.backend) (hwritable : l.Writable)
    (hclocked : l.clocked = false) :
    wp (rule cfg.config.useDistributedClocks)
      (whenever (cfg.config.useDistributedClocks = true) <|
        Bus.onBackend (armDcSync (MasterBus.cycleNs cfg) cfg.dcSync0ShiftNs))
      (fun l m _ => Configuring cfg.config.useDistributedClocks cfg.sync0Ns false false l m.backend)
      (fun l m _ => Agree l m.backend) l m := by
  apply wp_whenever
  · intro hdc
    rw [BusConfig.sync0Ns, hdc, wp_onBackend]
    refine wp_mono (armDcSync_spec hwritable h.armed h.link) (fun l' b' _ hl => ?_)
      fun _ _ _ h => h
    obtain ⟨rfl, hb⟩ := hl
    exact ⟨hwritable.1, hwritable.2, hclocked, rfl, hb⟩
  · intro hdc
    refine ⟨hwritable.1, hwritable.2, hclocked, ?_, ?_⟩
    · rw [Synced, if_neg hdc, h.armed]
    · rw [BusConfig.sync0Ns, if_neg hdc, h.link]

theorem clockPhase_spec {ns : UInt32} (h : Configuring dc ns true false l m.backend) :
    wp (rule dc) (whenever (dc = true) (Bus.onBackend configureDcConfigdc))
      (fun l m _ => Configuring dc ns true dc l m.backend) (fun l m _ => Agree l m.backend) l m := by
  apply wp_whenever
  · intro hdc
    subst hdc
    rw [wp_onBackend]
    exact configureDcConfigdc_spec h
  · intro hdc
    rw [Bool.eq_false_of_not_eq_true hdc] at h ⊢
    exact h

theorem configure_spec (h : Attached true l m.backend) :
    wp (rule cfg.config.useDistributedClocks) (MasterBus.configure text cfg)
      (fun l m _ => Wired cfg.config.useDistributedClocks cfg.sync0Ns l m.backend ∧
        m.master.bringupPhase = .settle)
      (fun l m _ => Agree l m.backend) l m := by
  rw [MasterBus.configure, wp_bind, wp_onBackend]
  refine wp_mono (preOpPhase_spec h) (fun l b _ hl => ?_) fun _ _ _ h => h
  obtain ⟨hattached, hwritable, hclocked⟩ := hl
  rw [wp_bind, wp_onBackend]
  refine wp_mono (applyMaps_spec hwritable cfg.maps hattached.link) (fun l' b _ hl => ?_)
    fun l' b _ hl => ?_
  · obtain ⟨rfl, hb⟩ := hl
    rw [wp_bind]
    refine wp_mono (armPhase_spec ⟨hattached.connected, hattached.armed, hb⟩ hwritable hclocked)
      (fun l m _ hl => ?_) fun _ _ _ h => h
    rw [wp_bind, wp_onBackend]
    refine wp_mono (mapProcessData_spec hl) (fun l b _ hl => ?_) fun _ _ _ h => h
    rw [wp_bind, wp_modify, wp_bind]
    refine wp_mono (addSlaves_spec cfg.maps hl) (fun l m _ hl => ?_) fun _ _ _ h => h
    rw [wp_bind]
    refine wp_mono (clockPhase_spec hl) (fun l m _ hl => ?_) fun _ _ _ h => h
    rw [wp_bind, wp_onBackend]
    refine wp_mono (safeOpPhase_spec hl) (fun l b _ hl => ?_) fun _ _ _ h => h
    rw [wp_modify]
    exact ⟨hl, rfl⟩
  · obtain ⟨rfl, hb⟩ := hl
    exact agree_of_link hattached.connected hb

theorem start_spec (h : l.connected = false) (hopen : m.backend.isOpen = false)
    (hns : m.backend.dcCycleNs = 0) :
    wp (rule cfg.config.useDistributedClocks) (MasterBus.start text cfg)
      (fun l m _ => Wired cfg.config.useDistributedClocks cfg.sync0Ns l m.backend ∧
        m.master.bringupPhase = .settle)
      (fun l m _ => Agree l m.backend) l m := by
  rw [MasterBus.start, wp_bind, MasterBus.init, wp_bind, wp_onBackend]
  refine wp_mono (openBus_spec h hopen hns) (fun l b count hl => ?_) fun _ _ _ h => ?_
  · refine wp_whenever (fun _ => agree_of_link hl.connected hl.link) fun _ => ?_
    exact configure_spec hl
  · exact h.1.trans h.2.symm

/-! ### The cycles -/

/-- The bus of a master in use. In the wait for OP it has been requested. -/
structure InUse (dc : Bool) (ns : UInt32) (l : BusLine) (m : MasterBus) : Prop where
  wired : Wired dc ns l m.backend
  opRequested : m.master.bringupPhase = .awaitOp → l.requested = .op

/-- A `bringup_step` requests OP as it enters the wait for it, and nudges the slaves in it. -/
theorem bringupStep_requests (m : Master) (x : BringupInput) :
    (∀ r ∈ (m.bringupStep x).requests, r = .setStateOp ∨ m.bringupPhase = .awaitOp) ∧
      ((m.bringupStep x).next.bringupPhase = .awaitOp →
        m.bringupPhase = .awaitOp ∨ .setStateOp ∈ (m.bringupStep x).requests) := by
  cases hphase : m.bringupPhase with
  | settle =>
      rw [Master.bringupStep_settle hphase]
      split
      · simp
      · simp [Master.settledOnce, hphase]
  | awaitOp => simp
  | done =>
      rw [Master.bringupStep_done hphase]
      simp [hphase]
  | aborted =>
      rw [Master.bringupStep_aborted hphase]
      simp [hphase]

section
variable {b : SoemBackend} {ns : UInt32}

theorem request_op (h : l.Serving) :
    l.request dc 0 EcatState.op.toSoemState = some { l with requested := .op } := by
  by_cases hop : l.requested = .op
  · rw [request, if_pos ⟨h.1, hop, .inl rfl⟩, ← hop]
  · rw [request, if_neg fun h => hop h.2.1, if_neg (by decide), if_neg (by decide),
      if_neg (by decide), if_pos rfl, if_pos h]

/-- A nudge in the wait for OP. -/
theorem request_nudge {slave state : UInt16} (h : l.Serving) (hop : l.requested = .op)
    (hstate : state = EcatState.op.toSoemState ∨
      state = EcatState.safeOp.toSoemState + ecStateError) :
    l.request dc slave state = some l := by
  rw [request, if_pos ⟨h.1, hop, hstate⟩]

variable {E : BusLine → SoemBackend → BusFailure → Prop}

theorem reackOp_spec (h : Wired dc ns l b) (hop : l.requested = .op) :
    wp (rule dc) (reackOp 0) (fun l' b' _ => Stays l b.link l' b') E l b := by
  rw [reackOp, wp_bind]
  refine wp_readState h.serving.1 fun b1 hb1 => ?_
  rw [wp_bind, wp_get]
  refine wp_forM (fun _ l' b' => Stays l b.link l' b') _ ⟨rfl, hb1⟩ fun _ slave _ l' b2 _ hl => ?_
  obtain ⟨rfl, hb2⟩ := hl
  rw [reackSlave, wp_bind, wp_get]
  refine wp_ite (fun _ => ?_) fun _ => wp_ite (fun _ => ?_) fun _ => ⟨rfl, hb2⟩
  · exact wp_writeState (request_nudge h.serving hop (.inr rfl)) fun b3 hb3 =>
      ⟨rfl, hb3.trans hb2⟩
  · rw [wp_bind, wp_modify]
    exact wp_writeState (request_nudge h.serving hop (.inl rfl)) fun b3 hb3 =>
      ⟨rfl, hb3.trans hb2⟩

theorem exchange_spec {Q : BusLine → SoemBackend → Int → Prop} (h : l.Serving)
    (hQ : ∀ b' wkc, b'.link = b.link → Q l b' wkc) : wp (rule dc) exchange Q E l b := by
  rw [exchange, wp_soem]
  intro x
  refine ⟨l, ?_, hQ _ x.1 rfl⟩
  simp only [rule, h, if_true]

/-- The requests of a `bringup_step`. -/
theorem perform_spec (requests : List BusRequest) (h : Wired dc ns l b)
    (hrequests : ∀ r ∈ requests, r = .setStateOp ∨ l.requested = .op) :
    wp (rule dc) (requests.forM MasterBus.perform)
      (fun l' b' _ => Wired dc ns l' b' ∧ (l.requested = .op → l'.requested = .op) ∧
        (.setStateOp ∈ requests → l'.requested = .op)) E l b := by
  refine wp_forM (fun done l' b' => Wired dc ns l' b' ∧ (l.requested = .op → l'.requested = .op) ∧
    (.setStateOp ∈ done → l'.requested = .op)) requests ⟨h, id, by simp⟩ ?_
  rintro done r rest l' b' hsplit ⟨hw, hkeep, hset⟩
  cases r with
  | setStateOp =>
      refine wp_writeState (request_op hw.serving) fun b'' hb'' => ?_
      exact ⟨⟨⟨hw.serving.1, .inr rfl⟩, hw.synced, hb''.trans hw.link⟩, fun _ => rfl, fun _ => rfl⟩
  | reackOp =>
      have hop : l.requested = .op := by
        have hr := hrequests .reackOp (by simp [hsplit])
        simpa using hr
      refine wp_mono (reackOp_spec hw (hkeep hop)) (fun l'' b'' _ hl => ?_) fun _ _ _ h => h
      obtain ⟨rfl, hb''⟩ := hl
      exact ⟨⟨hw.serving, hw.synced, hb''.trans hw.link⟩, hkeep, fun _ => hkeep hop⟩

end

theorem bringupStep_spec {ns : UInt32} {driveSyncFaulted drivePresent : Bool}
    {E : BusLine → MasterBus → BusFailure → Prop} (h : InUse dc ns l m) :
    wp (rule dc) (MasterBus.bringupStep driveSyncFaulted drivePresent)
      (fun l m _ => InUse dc ns l m) E l m := by
  rw [MasterBus.bringupStep, wp_bind, wp_onBackend]
  refine exchange_spec h.wired.serving fun b wkc hb => ?_
  have hw : Wired dc ns l b := ⟨h.wired.serving, h.wired.synced, hb.trans h.wired.link⟩
  rw [wp_bind, wp_get, wp_bind, wp_modify, wp_bind, wp_onBackend]
  obtain ⟨hrequests, hnext⟩ := bringupStep_requests m.master
    ⟨wkc, driveSyncFaulted, drivePresent, (b.alStatusCode 1).toBitVec⟩
  refine wp_mono (perform_spec _ hw fun r hr => (hrequests r hr).imp_right h.opRequested)
    (fun l' b' _ hl => ?_) fun _ _ _ h => h
  obtain ⟨hw', hkeep, hset⟩ := hl
  refine ⟨hw', fun hphase => ?_⟩
  obtain hbefore | hrequest := hnext hphase
  · exact hkeep (h.opRequested hbefore)
  · exact hset hrequest

theorem latch_bringupPhase (m : Master) (wkc : Int) (inGrace : Bool) :
    (m.latch wkc inGrace).bringupPhase = m.bringupPhase := by
  simp only [Master.latch]
  split_ifs <;> rfl

theorem process_bringupPhase (m : Master) (wkc : Int) :
    (m.process wkc).bringupPhase = m.bringupPhase := by
  simp only [Master.process, latch_bringupPhase]
  exact (apply_ite Master.bringupPhase ..).trans (ite_self _)

theorem process_spec {ns : UInt32} {E : BusLine → MasterBus → BusFailure → Prop}
    (h : InUse dc ns l m) :
    wp (rule dc) MasterBus.process (fun l m _ => InUse dc ns l m) E l m := by
  rw [MasterBus.process, wp_bind, wp_onBackend]
  refine exchange_spec h.wired.serving fun b wkc hb => ?_
  rw [wp_modify]
  refine ⟨⟨h.wired.serving, h.wired.synced, hb.trans h.wired.link⟩, fun hphase => ?_⟩
  rw [process_bringupPhase] at hphase
  exact h.opRequested hphase

theorem runOp_spec {ns : UInt32} {E : BusLine → MasterBus → BusFailure → Prop}
    (op : MasterBus.BusOp) (h : InUse dc ns l m) :
    wp (rule dc) (MasterBus.runOp text op) (fun l m _ => InUse dc ns l m) E l m := by
  have hstays {l' : BusLine} {b' : SoemBackend} (hl : Stays l m.backend.link l' b') :
      InUse dc ns l' { m with backend := b' } := by
    obtain ⟨rfl, hb⟩ := hl
    exact ⟨⟨h.wired.serving, h.wired.synced, hb.trans h.wired.link⟩, h.opRequested⟩
  cases op with
  | bringupStep driveSyncFaulted drivePresent =>
      rw [MasterBus.runOp, wp_bind]
      exact bringupStep_spec h
  | process => exact process_spec h
  | sdoWrite d =>
      rw [MasterBus.runOp, wp_bind, wp_attempt, wp_onBackend]
      exact wp_mono (sdoWrite_spec d (.inr h.wired.serving) rfl) (fun _ _ _ hl => hstays hl)
        fun _ _ _ hl => hstays hl
  | sdoRead slave index sub size =>
      rw [MasterBus.runOp, wp_bind, wp_attempt, wp_onBackend]
      exact wp_mono (sdoRead_spec slave index sub size h.wired.serving.1 rfl)
        (fun _ _ _ hl => hstays hl) fun _ _ _ hl => hstays hl
  | refreshSlaveState slave =>
      rw [MasterBus.runOp, wp_bind, wp_onBackend, refreshSlaveState, wp_bind, wp_get]
      refine wp_ite (fun _ => hstays ⟨rfl, rfl⟩) fun _ => ?_
      rw [wp_bind]
      exact wp_readState h.wired.serving.1 fun b hb => hstays ⟨rfl, hb⟩

/-! ### The end -/

/-- The interface is closed, after INIT was requested with SYNC0 off. -/
structure Down (l : BusLine) (m : MasterBus) : Prop where
  closed : l.connected = false
  backend : m.backend.isOpen = false
  requested : l.requested = .init
  armed : l.armed = []

theorem request_init (h : l.connected = true) (harmed : l.armed = []) :
    l.request dc 0 EcatState.init.toSoemState =
      some { l with requested := .init, confirmed := false } := by
  rw [request, if_neg fun h => absurd h.2.2 (by decide), if_neg (by decide), if_neg (by decide),
    if_neg (by decide), if_neg (by decide), if_pos rfl, if_pos ⟨h, harmed⟩]

theorem close_spec {ns : UInt32} {E : BusLine → MasterBus → BusFailure → Prop}
    (h : Wired dc ns l m.backend) (hns : ns = 0 ↔ dc = false) :
    wp (rule dc) MasterBus.close (fun l m _ => Down l m) E l m := by
  rw [MasterBus.close, wp_bind, wp_modify, wp_onBackend, SoemBackend.close, wp_bind, wp_get]
  have hopen : m.backend.isOpen = true := congrArg Link.isOpen h.link
  apply wp_whenever
  · intro _
    rw [wp_bind]
    refine wp_mono (disarm_spec h.serving.1 h.synced hns h.link) (fun l' b1 _ hl => ?_)
      fun _ _ _ h => h
    obtain ⟨rfl, -⟩ := hl
    rw [wp_bind]
    refine wp_writeState (request_init h.serving.1 rfl) fun b2 _ => ?_
    rw [wp_bind]
    refine wp_stateCheck h.serving.1 fun b3 state _ => ?_
    rw [wp_bind, wp_soem]
    intro x
    refine ⟨_, if_pos h.serving.1, ?_⟩
    rw [wp_modify]
    exact ⟨rfl, rfl, rfl, rfl⟩
  · intro hclosed
    exact absurd hopen hclosed

theorem destroy_spec {E : BusLine → SoemBackend → BusFailure → Prop} {b : SoemBackend}
    (h : Agree l b) :
    wp (rule dc) destroy
      (fun l' _ _ => l'.connected = false ∧ l'.requested = l.requested ∧ l'.armed = l.armed)
      E l b := by
  rw [destroy, wp_bind, wp_get]
  apply wp_whenever
  · intro hopen
    rw [wp_soem]
    intro x
    exact ⟨_, if_pos (h.trans hopen), rfl, rfl, rfl⟩
  · intro hclosed
    exact ⟨h.trans (Bool.eq_false_of_not_eq_true hclosed), rfl, rfl⟩

/-- The rates that the constructor accepts. -/
theorem rate_of_check {c : MasterConfig} (h : c.check = .ok ()) :
    0 < c.targetLoopRateHz.toNat ∧ c.targetLoopRateHz.toNat ≤ 1000 := by
  by_contra hrange
  have hrate : c.targetLoopRateHz = 0 ∨ 1000 < c.targetLoopRateHz := by
    rw [UInt32.lt_iff_toNat_lt, ← UInt32.toNat_inj, show (1000 : UInt32).toNat = 1000 from rfl,
      show (0 : UInt32).toNat = 0 from rfl]
    omega
  simp only [MasterConfig.check, if_pos hrate] at h
  split at h
  · cases h
  · split at h <;> cases h

/-- The rate that the constructor accepts gives a cycle that SYNC0 can have. -/
theorem sync0Ns_eq_zero_iff (cfg : BusConfig) :
    cfg.sync0Ns = 0 ↔ cfg.config.useDistributedClocks = false := by
  cases hdc : cfg.config.useDistributedClocks with
  | false => simp [BusConfig.sync0Ns, hdc]
  | true =>
      simp only [BusConfig.sync0Ns, hdc, if_true, Bool.true_eq_false, iff_false]
      obtain ⟨hpos, hle⟩ := rate_of_check cfg.accepted
      intro hzero
      have hnat := congrArg UInt32.toNat hzero
      rw [MasterBus.cycleNs, UInt32.toNat_ofNat', MasterConfig.nsPerSec] at hnat
      have hlow : 1000000 ≤ 1000000000 / cfg.config.targetLoopRateHz.toNat := by
        rw [Nat.le_div_iff_mul_le hpos]
        omega
      have hhigh := Nat.div_le_self 1000000000 cfg.config.targetLoopRateHz.toNat
      rw [Nat.mod_eq_of_lt (by omega)] at hnat
      simp at hnat
      omega

/-- A session ends with the interface closed. One whose start succeeded has taken the bus down. -/
theorem session_spec (ops : List MasterBus.BusOp) (h : l.connected = false) :
    wp (rule cfg.config.useDistributedClocks) (MasterBus.session text cfg ops)
      (fun l _ started => l.connected = false ∧
        (started = .ok () → l.requested = .init ∧ l.armed = []))
      (fun _ _ _ => False) l (MasterBus.new cfg) := by
  rw [MasterBus.session, wp_bind, wp_attempt]
  refine wp_mono (start_spec h rfl rfl) (fun l m _ hl => ?_) fun l m e hagree => ?_
  · obtain ⟨hw, hphase⟩ := hl
    have huse : InUse cfg.config.useDistributedClocks cfg.sync0Ns l m :=
      ⟨hw, fun hawait => by rw [hphase] at hawait; cases hawait⟩
    rw [wp_bind, MasterBus.use, wp_bind]
    refine wp_mono (wp_forM (fun _ l m => InUse cfg.config.useDistributedClocks cfg.sync0Ns l m)
      ops huse fun _ op _ _ _ _ huse => runOp_spec op huse) (fun l m _ huse => ?_)
      fun _ _ _ h => h
    refine wp_mono (close_spec huse.wired (sync0Ns_eq_zero_iff cfg)) (fun l m _ hdown => ?_)
      fun _ _ _ h => h
    rw [wp_bind, wp_onBackend]
    refine wp_mono (destroy_spec (hdown.closed.trans hdown.backend.symm)) (fun l' _ _ hl => ?_)
      fun _ _ _ h => h
    obtain ⟨hclosed, hrequested, harmed⟩ := hl
    exact ⟨hclosed, fun _ => ⟨hrequested.trans hdown.requested, harmed.trans hdown.armed⟩⟩
  · rw [wp_bind, MasterBus.use, wp_pure, wp_bind, wp_onBackend]
    refine wp_mono (destroy_spec hagree) (fun l' _ _ hl => ?_) fun _ _ _ h => h
    exact ⟨hl.1, fun hok => by cases hok⟩

end

/-- Whatever the bus answers, a session keeps to its rules: the maps are written, SYNC0 is armed and
the image is mapped in a confirmed PRE-OP, SAFE-OP is requested on a mapped bus whose clocks run, OP
on one that has confirmed SAFE-OP, and only then there are cycles and further writes. Every session
ends with the interface closed, and one whose start succeeded with INIT requested and SYNC0 off
before that. -/
theorem session_follows_bus_rules (text : SoemText) (cfg : BusConfig)
    (ops : List MasterBus.BusOp) {l : BusLine} (hl : l.connected = false)
    {exchanges : List (Sigma SoemAnswer)} {r : Except BusFailure (Except BusFailure Unit) × MasterBus}
    (hruns : (MasterBus.session text cfg ops (MasterBus.new cfg)).Runs exchanges r) :
    ∃ l' started, Dialogue.replay (rule cfg.config.useDistributedClocks) l exchanges = some l' ∧
      r.1 = .ok started ∧ l'.connected = false ∧
      (started = .ok () → l'.requested = .init ∧ l'.armed = []) := by
  obtain ⟨l', hreplay, hend⟩ := wp_runs (session_spec ops hl) hruns
  rcases r with ⟨e | started, m⟩
  · exact hend.elim
  · exact ⟨l', started, hreplay, rfl, hend⟩

/-- SOEM's strings in the witness. -/
def benchText : SoemText := { alStatusCode := fun _ => "", sdoError := fun _ => "" }

/-- One drive with distributed clocks at 1 kHz, and 6 bytes each way. -/
def benchBusConfig : BusConfig where
  config := { ifname := "eth0", slaves := [{}], useDistributedClocks := true, dcOpGateCycles := 1 }
  maps := [{
    rxpdo := ⟨0, [0x1600], ⟨[⟨0x1600, [⟨0x6040, 0, 16⟩, ⟨0x607A, 0, 32⟩]⟩], by
      simp [List.NodupKeys, List.keys]⟩⟩
    txpdo := ⟨0, [0x1A00], ⟨[⟨0x1A00, [⟨0x6041, 0, 16⟩, ⟨0x6064, 0, 32⟩]⟩], by
      simp [List.NodupKeys, List.keys]⟩⟩ }]
  same := rfl
  accepted := rfl

/-- A bus of that drive, which does what it is asked. -/
def benchBus (_ : Unit) : (q : SoemCall) → SoemAnswer q × Unit
  | .init _ => ((1, {}), ())
  | .configInit => ((⟨1, 1⟩, {}), ())
  | .readState => (((), {}), ())
  | .writeState _ _ => (((), {}), ())
  | .stateCheck _ want => ((want, {}), ())
  | .mbxEmpty _ => ((1, {}), ())
  | .sdoRead _ _ _ _ => ((⟨1, 4⟩, {}), ())
  | .sdoWrite _ => ((1, {}), ())
  | .configMapGroup =>
      ((⟨12, 1, 1⟩, { slavelist := fun _ => { outputBytes := 6, inputBytes := 6 } }), ())
  | .configDc => ((true, {}), ())
  | .dcSync0 _ _ _ _ => (((), {}), ())
  | .processData => ((3, {}), ())
  | .close => (((), {}), ())

/-- A session on that bus: its first cycle requests OP. -/
def benchSession : Dialogue SoemCall SoemAnswer
    (Except BusFailure (Except BusFailure Unit) × MasterBus) :=
  MasterBus.session benchText benchBusConfig
    [.bringupStep false true, .sdoWrite ⟨1, 0x2005, 4, 2, 1⟩, .process]
    (MasterBus.new benchBusConfig)

/-- That session starts, keeps to the rules and takes the bus down. -/
theorem session_follows_bus_rules_bench :
    ∃ exchanges l', benchSession.Runs exchanges (benchSession.runWith benchBus ()).1 ∧
      Dialogue.replay (rule true) {} exchanges = some l' ∧ l'.connected = false ∧
      l'.requested = .init ∧ l'.armed = [] := by
  obtain ⟨exchanges, hruns⟩ := Dialogue.exists_runs benchBus benchSession ()
  obtain ⟨l', started, hreplay, hstarted, hclosed, hdown⟩ :=
    session_follows_bus_rules benchText benchBusConfig _
      (show ({} : BusLine).connected = false from rfl) hruns
  have hok : ((benchSession.runWith benchBus ()).1.1.toOption.bind Except.toOption).isSome := by
    decide +kernel
  rw [hstarted] at hok
  cases started with
  | error e => simp [Except.toOption] at hok
  | ok u =>
      obtain ⟨hrequested, harmed⟩ := hdown rfl
      exact ⟨exchanges, l', hruns, hreplay, hclosed, hrequested, harmed⟩

end ViamEthercat
