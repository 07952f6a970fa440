import Idpf.Tx.Basic
import Idpf.Vc.Slots

/-! A message that the RDMA driver passes through the mailbox. The transaction copies as much of the
reply as the caller's buffer takes, and reports the length of the whole reply. -/
namespace Idpf
open General

/-- `VIRTCHNL2_OP_RDMA`. -/
def vcOpRdma : Nat := 529

/-- The arguments of `idpf_idc_rdma_vc_send_sync`: `recvMsg` is whether there is a buffer, `recvLen`
what the pointer to the length leads to. -/
structure RdmaReq where
  msgSize : Nat
  recvMsg : Bool
  recvLen : Option Nat

/-- An error of the arguments, or one of the transaction. -/
inductive RdmaErr where
  | einval
  | xn (r : VcRet)
  deriving DecidableEq, Repr

/-- What it returns, and the length behind the pointer afterwards. -/
structure RdmaRet where
  err : Option RdmaErr
  recvLen : Option Nat
  deriving DecidableEq, Repr

namespace RdmaReq

/-- `recv_size`. -/
def recvSize (req : RdmaReq) : Nat := min (req.recvLen.getD 0) 4096

def params (req : RdmaReq) : Option VcXnParams :=
  if !req.recvMsg || req.recvLen.isNone || req.msgSize > 4096 then none
  else some { recvBuf := some req.recvSize, vcOp := vcOpRdma }

def refused (req : RdmaReq) : RdmaRet := ⟨some .einval, req.recvLen⟩

end RdmaReq

def rdmaReturn : VcRet → RdmaRet
  | .size n => ⟨none, some (u16 n)⟩
  | r => ⟨some (.xn r), some 0⟩

/-- The manager while call `t` has its slot set up: how many bytes have been copied to the buffer of
the call, and the reply that it comes back with if nothing else happens. -/
structure XnWait where
  mngr : VcXnManager
  copied : Nat := 0
  answer : Option VcMsg := none

/-- What happens until the call has its slot back: a reply comes in, the slot is shut down, or
something happens to the other slots. -/
inductive Meanwhile where
  | reply (m : VcMsg) (handlerErr : Int)
  | shut
  | others (mngr : VcXnManager)

namespace XnWait

/-- Bytes that `idpf_vc_xn_forward_reply` copies to the buffer of call `t`. -/
def copies (t : Nat) (m : VcMsg) : Option VcReply → Nat
  | some b => if b.call = t then min b.len m.dataLen else 0
  | none => 0

def step (i t : Nat) (w : XnWait) : Meanwhile → Option XnWait
  | .reply m handlerErr =>
    let r := w.mngr.forwardReply m handlerErr
    some {
      mngr := r.mngr
      copied := w.copied + copies t m r.wrote
      answer := if (w.mngr.ring i).state = .waiting ∧ (r.mngr.ring i).state = .completedSuccess
        then some m else w.answer }
  | .shut => some { w with mngr := w.mngr.shutSlot i, answer := none }
  | .others mngr => some { w with mngr }

/-- No other slot has the buffer of call `t`. -/
def Apart (i t : Nat) (m : VcXnManager) : Prop :=
  ∀ j, j ≠ i → ∀ b, (m.ring j).reply = some b → b.call ≠ t

/-- Lengths are those of a `u16`, and the slot is the call's own, but for its completion. -/
def ok (i t : Nat) (w : XnWait) : Meanwhile → Prop
  | .reply m _ => m.dataLen < 65536
  | .shut => True
  | .others mngr => (∃ completed, mngr.ring i = { w.mngr.ring i with completed }) ∧ Apart i t mngr

end XnWait

/-- `idpf_vc_xn_exec` for a synchronous call `t`: what it returns, the bytes copied to its buffer
and the reply it comes back with. -/
inductive XnExec (m : VcXnManager) (t : Nat) (params : VcXnParams) :
    VcRet → Nat → Option VcMsg → Prop
  | full : m.popFree = none → XnExec m t params .enospc 0 none
  | down (i : Nat) (m' : VcXnManager) : m.popFree = some (i, m') →
      (m'.ring i).state = .shutdown → XnExec m t params .enxio 0 none
  | failed (i e : Nat) (m' : VcXnManager) (w : XnWait) : m.popFree = some (i, m') →
      (m'.ring i).state ≠ .shutdown → Reachable (XnWait.step i t) (XnWait.ok i t)
        (fun w => w = { mngr := m'.setXn i ((m'.ring i).setUp t params) }) w →
      XnExec m t params (.send e) w.copied none
  | waited (i : Nat) (m' : VcXnManager) (w : XnWait) : m.popFree = some (i, m') →
      (m'.ring i).state ≠ .shutdown → Reachable (XnWait.step i t) (XnWait.ok i t)
        (fun w => w = { mngr := m'.setXn i ((m'.ring i).setUp t params) }) w →
      XnExec m t params (w.mngr.finish i).2 w.copied w.answer

/-- The documented contract: the length of what has been copied, within what the caller has passed,
or 0 on error. -/
def RdmaRet.Meets (ret : RdmaRet) (req : RdmaReq) (copied : Nat) : Prop :=
  match ret.err with
  | none => ret.recvLen = some copied ∧ copied ≤ req.recvLen.getD 0
  | some _ => ret.recvLen.getD 0 = 0

namespace XnWait

inductive Story (i t size : Nat) (w : XnWait) : Prop
  | waiting : (w.mngr.ring i).state = .waiting → (w.mngr.ring i).reply = some ⟨t, size⟩ →
      w.copied = 0 → w.answer = none → Story i t size w
  | success (m : VcMsg) : (w.mngr.ring i).state = .completedSuccess → w.answer = some m →
      m.dataLen < 65536 → (w.mngr.ring i).replySz = m.dataLen → w.copied = min size m.dataLen →
      Story i t size w
  | failed : (w.mngr.ring i).state = .completedFailed → w.copied = 0 → w.answer = none →
      Story i t size w
  | shut : (w.mngr.ring i).state = .shutdown → w.copied ≤ size → w.answer = none →
      Story i t size w

variable {i t size : Nat} {w w' : XnWait} {e : Meanwhile}

theorem Story.copied_le (v : Story i t size w) : w.copied ≤ size := by
  cases v with
  | waiting _ _ copied _ => exact copied ▸ Nat.zero_le size
  | success m _ _ _ _ copied => exact copied ▸ Nat.min_le_left ..
  | failed _ copied _ => exact copied ▸ Nat.zero_le size
  | shut _ copied _ => exact copied

/-- The ways a reply can go. -/
inductive Replied (m : VcXnManager) (msg : VcMsg) (r : VcForward) : Prop
  | dropped : r.mngr = m → r.wrote = none → Replied m msg r
  | failed : (m.ring (vcCookieIdx msg.cookie)).state = .waiting →
      r.mngr = m.setXn (vcCookieIdx msg.cookie)
        { m.ring (vcCookieIdx msg.cookie) with replySz := 0, state := .completedFailed } →
      r.wrote = none → Replied m msg r
  | taken : (m.ring (vcCookieIdx msg.cookie)).state = .waiting →
      r.mngr = m.setXn (vcCookieIdx msg.cookie)
        { m.ring (vcCookieIdx msg.cookie) with
          replySz := msg.dataLen, state := .completedSuccess } →
      r.wrote = (m.ring (vcCookieIdx msg.cookie)).reply.filter
        (fun b => b.len ≠ 0 ∧ msg.dataLen ≠ 0) → Replied m msg r
  | async (len : Nat) : (m.ring (vcCookieIdx msg.cookie)).state = .async →
      r.mngr = (m.setXn (vcCookieIdx msg.cookie)
        { m.ring (vcCookieIdx msg.cookie) with replySz := len }).pushFree
        (vcCookieIdx msg.cookie) → r.wrote = none → Replied m msg r

theorem forwardReply_replied (m : VcXnManager) (msg : VcMsg) (err : Int) :
    Replied m msg (m.forwardReply msg err) := by
  unfold VcXnManager.forwardReply
  dsimp only
  split
  · exact .dropped rfl rfl
  · split
    · exact .dropped rfl rfl
    · cases state : (m.ring (vcCookieIdx msg.cookie)).state with
      | waiting =>
          dsimp only
          split
          · exact .failed state rfl rfl
          · exact .taken state rfl rfl
      | async =>
          obtain ⟨len, e, same⟩ := VcSystem.forwardAsync_eq m (vcCookieIdx msg.cookie) msg err
          dsimp only
          rw [same]
          exact .async len state rfl rfl
      | _ => exact .dropped rfl rfl

theorem Story.keep (v : Story i t size w) {completed : Completion}
    (same : w'.mngr.ring i = { w.mngr.ring i with completed })
    (copied : w'.copied = w.copied) (answer : w'.answer = w.answer) : Story i t size w' := by
  cases v with
  | waiting state reply none fresh =>
      exact .waiting (same ▸ state) (same ▸ reply) (copied.trans none) (answer.trans fresh)
  | success m state taken short sz all =>
      exact .success m (same ▸ state) (answer.trans taken) short (same ▸ sz) (copied.trans all)
  | failed state none fresh => exact .failed (same ▸ state) (copied.trans none) (answer.trans fresh)
  | shut state less fresh => exact .shut (same ▸ state) (copied ▸ less) (answer.trans fresh)

theorem setXn_same (m : VcXnManager) (i : Nat) (xn : VcXn) : (m.setXn i xn).ring i = xn :=
  Function.update_self ..

theorem setXn_other (m : VcXnManager) {i j : Nat} (xn : VcXn) (other : j ≠ i) :
    (m.setXn i xn).ring j = m.ring j := Function.update_of_ne other ..

/-- The call's slot and the others. -/
structure Inv (i t size : Nat) (w : XnWait) : Prop where
  story : Story i t size w
  apart : Apart i t w.mngr

/-- A reply to another slot. -/
theorem Inv.aside (v : Inv i t size w) {r : VcForward} {j : Nat} (xn : VcXn) {m : VcMsg}
    (other : j ≠ i) (ring : ∀ k, r.mngr.ring k = (w.mngr.setXn j xn).ring k)
    (left : xn.reply = none ∨ xn.reply = (w.mngr.ring j).reply)
    (wrote : ∀ b, r.wrote = some b → (w.mngr.ring j).reply = some b) :
    Inv i t size {
      mngr := r.mngr
      copied := w.copied + copies t m r.wrote
      answer := if (w.mngr.ring i).state = .waiting ∧ (r.mngr.ring i).state = .completedSuccess
        then some m else w.answer } := by
  have own : r.mngr.ring i = w.mngr.ring i := (ring i).trans (setXn_other _ _ other.symm)
  have apart : Apart i t w.mngr := v.apart
  refine ⟨v.story.keep own ?_ ?_, fun k far b reply => ?_⟩
  · dsimp only
    cases same : r.wrote with
    | none => rfl
    | some b => simp [copies, apart j other b (wrote b same)]
  · dsimp only
    rw [own, if_neg (fun both => by simp [both.1] at both)]
  · dsimp only at reply
    rw [ring] at reply
    rcases eq_or_ne k j with rfl | ne
    · rw [setXn_same] at reply
      rcases left with gone | kept
      · simp [gone] at reply
      · exact apart k far b (kept ▸ reply)
    · rw [setXn_other _ _ ne] at reply
      exact apart k far b reply

/-- A reply to the call's own slot. -/
theorem Inv.own (v : Inv i t size w) {r : VcForward} {xn : VcXn} {m : VcMsg}
    (waits : (w.mngr.ring i).state = .waiting) (mngr : r.mngr = w.mngr.setXn i xn)
    (story : (w.mngr.ring i).reply = some ⟨t, size⟩ → w.copied = 0 → w.answer = none →
      Story i t size {
        mngr := w.mngr.setXn i xn
        copied := copies t m r.wrote
        answer := if xn.state = .completedSuccess then some m else none }) :
    Inv i t size {
      mngr := r.mngr
      copied := w.copied + copies t m r.wrote
      answer := if (w.mngr.ring i).state = .waiting ∧ (r.mngr.ring i).state = .completedSuccess
        then some m else w.answer } := by
  obtain ⟨-, reply, copied, fresh⟩ | ⟨_, state, _, _, _, _⟩ | ⟨state, _, _⟩ | ⟨state, _, _⟩ :=
    v.story
  · refine ⟨?_, fun j far b full => ?_⟩
    · have told := story reply copied fresh
      rw [mngr, setXn_same, copied, fresh, waits]
      simpa using told
    · dsimp only at full
      rw [mngr, setXn_other _ _ far] at full
      exact v.apart j far b full
  all_goals simp [state] at waits

theorem Inv.reply (v : Inv i t size w) {m : VcMsg} {err : Int} (short : m.dataLen < 65536)
    (moved : w.step i t (.reply m err) = some w') : Inv i t size w' := by
  obtain rfl := Option.some.inj moved
  cases forwardReply_replied w.mngr m err with
  | dropped same quiet =>
      refine ⟨v.story.keep (by dsimp only; rw [same]) (by simp [quiet, copies]) ?_, ?_⟩
      · dsimp only
        rw [same, if_neg (fun both => by simp [both.1] at both)]
      · dsimp only
        exact same.symm ▸ v.apart
  | failed state mngr quiet =>
      rcases eq_or_ne (vcCookieIdx m.cookie) i with rfl | other
      · refine v.own state mngr fun _ _ _ => .failed ?_ ?_ ?_
        · exact congrArg VcXn.state (setXn_same ..)
        · simp [quiet, copies]
        · rfl
      · exact v.aside _ other (fun _ => congrArg (VcXnManager.ring · _) mngr) (.inr rfl)
          (by simp [quiet])
  | taken state mngr wrote =>
      rcases eq_or_ne (vcCookieIdx m.cookie) i with rfl | other
      · refine v.own state mngr fun reply _ _ => .success m ?_ rfl short ?_ ?_
        · exact congrArg VcXn.state (setXn_same ..)
        · exact congrArg VcXn.replySz (setXn_same ..)
        · dsimp only
          rw [wrote, reply]
          rw [Option.filter_some]
          by_cases bytes : size ≠ 0 ∧ m.dataLen ≠ 0
          · rw [if_pos (by simpa using bytes)]
            exact if_pos rfl
          · rw [if_neg (by simpa using bytes)]
            have nothing : min size m.dataLen = 0 := by omega
            exact nothing.symm
      · exact v.aside _ other (fun _ => congrArg (VcXnManager.ring · _) mngr) (.inr rfl)
          fun b full => (Option.filter_eq_some_iff.1 (wrote ▸ full)).1
  | async len state mngr quiet =>
      have other : vcCookieIdx m.cookie ≠ i := by
        rintro rfl
        cases v.story with
        | waiting waits _ _ _ => simp [state] at waits
        | success _ done _ _ _ _ => simp [state] at done
        | failed done _ _ => simp [state] at done
        | shut done _ _ => simp [state] at done
      refine v.aside
        ({ w.mngr.ring (vcCookieIdx m.cookie) with replySz := len } : VcXn).releaseBufs other
        (fun k => ?_) (.inl rfl) (by simp [quiet])
      rw [mngr]
      rcases eq_or_ne k (vcCookieIdx m.cookie) with rfl | ne
      · rw [setXn_same]
        exact (setXn_same ..).trans (congrArg VcXn.releaseBufs (setXn_same ..))
      · rw [setXn_other _ _ ne]
        exact (setXn_other _ _ ne).trans (setXn_other _ _ ne)

theorem Inv.step (v : Inv i t size w) (fine : w.ok i t e) (moved : w.step i t e = some w') :
    Inv i t size w' := by
  cases e with
  | reply m err => exact v.reply fine moved
  | shut =>
      obtain rfl := Option.some.inj moved
      have own : (w.mngr.shutSlot i).ring i =
          { w.mngr.ring i with state := .shutdown }.releaseBufs := setXn_same ..
      refine ⟨.shut ?_ v.story.copied_le rfl, fun j other b reply => ?_⟩
      · dsimp only
        rw [own]
        rfl
      · refine v.apart j other b ?_
        rw [← reply]
        exact (setXn_other _ _ other).symm ▸ rfl
  | others mngr =>
      obtain rfl := Option.some.inj moved
      obtain ⟨⟨_, same⟩, apart⟩ := fine
      exact ⟨v.story.keep same rfl rfl, apart⟩

/-- Another slot has been written, or the completion of this one. -/
structure Aside (i t : Nat) (m m' : VcXnManager) : Prop where
  own : ∃ completed, m'.ring i = { m.ring i with completed }
  far : ∀ j, j ≠ i → ∀ b, (m'.ring j).reply = some b → (m.ring j).reply = some b ∨ b.call ≠ t

variable {m m' : VcXnManager}

theorem Aside.same (ring : m'.ring = m.ring) : Aside i t m m' :=
  ⟨⟨_, congrFun ring i⟩, fun j _ _ full => .inl (congrFun ring j ▸ full)⟩

theorem Aside.completed {j : Nat} {completed : Completion}
    (ring : m'.ring = (m.setXn j { m.ring j with completed }).ring) : Aside i t m m' := by
  have at_ (k : Nat) : ∃ completed, m'.ring k = { m.ring k with completed } := by
    rcases eq_or_ne k j with rfl | ne
    · exact ⟨completed, (congrFun ring k).trans (setXn_same ..)⟩
    · exact ⟨_, (congrFun ring k).trans (setXn_other _ _ ne)⟩
  refine ⟨at_ i, fun k _ b full => .inl ?_⟩
  obtain ⟨_, same⟩ := at_ k
  rw [same] at full
  exact full

theorem Aside.other {j : Nat} {xn : VcXn} (ne : j ≠ i) (ring : m'.ring = (m.setXn j xn).ring)
    (reply : ∀ b, xn.reply = some b → (m.ring j).reply = some b ∨ b.call ≠ t) :
    Aside i t m m' := by
  refine ⟨⟨_, (congrFun ring i).trans (setXn_other _ _ ne.symm)⟩, fun k _ b full => ?_⟩
  rw [ring] at full
  rcases eq_or_ne k j with rfl | away
  · exact reply b (setXn_same m k xn ▸ full)
  · exact .inl (setXn_other m xn away ▸ full)

theorem Aside.ok (aside : Aside i t w.mngr m') (apart : Apart i t w.mngr) :
    w.ok i t (.others m') :=
  ⟨aside.own, fun j other b full => (aside.far j other b full).elim (apart j other b) id⟩

end XnWait

namespace VcSystem

variable {s s' : VcSystem} {t i : Nat} {op : VcOp}

/-- Call `t` has slot `i` set up and has not returned. -/
def Under (s : VcSystem) (t i : Nat) : Prop := s.Holds t i ∧ (s.calls t).phase.begun = true

theorem Under.other_slot (under : s.Under t i) (held : s.Held) {u j : Nat} (holds : s.Holds u j)
    (ne : u ≠ t) : j ≠ i := by
  rintro rfl
  exact ne ((held.slot j).one u t holds under.1)

theorem Under.sees (under : s.Under t i) (held : s.Held) (steady : s.steady op = true)
    (moved : Move s op s') (stays : s'.Under t i) :
    (∃ m e, op = .recv m e) ∨ s'.mngr = s.mngr.shutSlot i ∨ XnWait.Aside i t s.mngr s'.mngr := by
  have gone {r : VcRet} (calls : (s'.calls t).phase = .returned r) : False := by
    have := stays.2
    simp [calls, VcPhase.begun] at this
  cases moved with
  | recvDrop | recvMiss | recvFailed | recvSuccess | recvAsync => exact .inl ⟨_, _, rfl⟩
  | @exec params j bound free =>
    have ne : j ≠ i := by
      rintro rfl
      simp [(held.slot j).taken t under.1] at free
    exact .inr (.inr (.other ne rfl fun _ full => .inl full))
  | @enter u j place opened =>
    have ne : u ≠ t := by
      rintro rfl
      have := under.2
      simp [place, VcPhase.begun] at this
    refine .inr (.inr (.other (under.other_slot held (.of_phase place rfl) ne) rfl ?_))
    intro b full
    obtain ⟨_, -, rfl⟩ := Option.map_eq_some_iff.1 full
    exact .inr ne
  | @fail u j e place =>
    have ne : u ≠ t := by
      rintro rfl
      exact gone (r := .send e) (by simp [ret, note, goTo, setCall])
    exact .inr (.inr (.other (under.other_slot held (.of_phase place rfl) ne) rfl
      fun _ full => (Option.some_ne_none _ full.symm).elim))
  | @finish u j r place opened time size =>
    have ne : u ≠ t := by
      rintro rfl
      exact gone (r := r) (by simp [ret, note, goTo, setCall])
    exact .inr (.inr (.other (under.other_slot held (.of_phase place rfl) ne) rfl
      fun _ full => (Option.some_ne_none _ full.symm).elim))
  | @sweep j place bound =>
    rcases eq_or_ne j i with rfl | ne
    · exact .inr (.inl rfl)
    · exact .inr (.inr (.other ne rfl fun _ full => (Option.some_ne_none _ full.symm).elim))
  | @initSlot j place bound =>
    have ne : j ≠ i := by
      rintro rfl
      simp only [VcSystem.steady, place] at steady
      exact held.settled steady t under.1
    exact .inr (.inr (.other ne rfl fun _ full => (Option.some_ne_none _ full.symm).elim))
  | arm | wake | signal | wakeAll => exact .inr (.inr (.completed rfl))
  | _ => exact .inr (.inr (.same rfl))

/-- The steps of the system, as a call sees them that is under way. -/
theorem Under.wait {w : XnWait} (under : s.Under t i) (held : s.Held)
    (steady : s.steady op = true) (short : ∀ m e, op = .recv m e → m.dataLen < 65536)
    (moved : s.step op = some s') (stays : s'.Under t i) (apart : XnWait.Apart i t w.mngr)
    (same : w.mngr = s.mngr) :
    ∃ e w', w.ok i t e ∧ w.step i t e = some w' ∧ w'.mngr = s'.mngr := by
  rcases under.sees held steady (move_of_step moved) stays with ⟨m, e, rfl⟩ | shut | aside
  · refine ⟨.reply m e, _, short m e rfl, rfl, ?_⟩
    simp only [VcSystem.step] at moved
    split at moved
    · obtain rfl := Option.some.inj moved
      rw [same, recv]
      dsimp only
      split <;> rfl
    · exact (Option.some_ne_none _ moved.symm).elim
  · exact ⟨.shut, _, trivial, rfl, (same ▸ shut).symm⟩
  · exact ⟨.others s'.mngr, _, (same ▸ aside).ok apart, rfl, rfl⟩

/-- From where a call has set its slot up until it takes the result, the system runs as the call's
own account of it has it. -/
theorem wait_of_run {first : VcSystem} {w0 : XnWait} {size : Nat} (held : first.Held)
    (under : first.Under t i) (begins : w0.mngr = first.mngr) (inv : w0.Inv i t size)
    (h : Reachable step (fun s op => s.steady op = true ∧
        (∀ m e, op = .recv m e → m.dataLen < 65536) ∧ ∀ s', s.step op = some s' → s'.Under t i)
      (fun s => s = first) s) :
    s.Held ∧ s.Under t i ∧ ∃ w, w.mngr = s.mngr ∧ w.Inv i t size ∧
      Reachable (XnWait.step i t) (XnWait.ok i t) (fun w => w = w0) w := by
  refine h.invariant (I := fun s => s.Held ∧ s.Under t i ∧ ∃ w : XnWait, w.mngr = s.mngr ∧
    w.Inv i t size ∧ Reachable (XnWait.step i t) (XnWait.ok i t) (fun w => w = w0) w) ?_ ?_
  · rintro s rfl
    exact ⟨held, under, w0, begins, inv, .start rfl⟩
  · rintro s op s' ⟨held, under, w, same, inv, met⟩ ⟨steady, short, stays⟩ moved
    obtain ⟨e, w', fine, next, mngr⟩ :=
      under.wait held steady short moved (stays s' moved) inv.apart same
    exact ⟨held.step steady (move_of_step moved), stays s' moved, w', mngr, inv.step fine next,
      met.next fine next⟩

end VcSystem

namespace XnWait

/-- What a popped slot is, once its call has written to it. -/
theorem Inv.start {m m' : VcXnManager} {req : RdmaReq} {p : VcXnParams}
    (fresh : ∀ j b, (m.ring j).reply = some b → b.call ≠ t) (sent : req.params = some p)
    (popped : m.popFree = some (i, m')) :
    Inv i t req.recvSize { mngr := m'.setXn i ((m'.ring i).setUp t p) } := by
  have args : p = { recvBuf := some req.recvSize, vcOp := vcOpRdma } := by
    unfold RdmaReq.params at sent
    split at sent
    · simp at sent
    · exact (Option.some.inj sent).symm
  refine ⟨.waiting ?_ ?_ rfl rfl, fun j other b full => ?_⟩
  · dsimp only
    rw [setXn_same, args]
    rfl
  · dsimp only
    rw [setXn_same, args]
    rfl
  · dsimp only at full
    rw [setXn_other _ _ other] at full
    obtain ⟨k, -, both⟩ := Option.map_eq_some_iff.1 popped
    obtain ⟨rfl, rfl⟩ := Prod.mk.inj both
    refine fresh j b (Eq.trans ?_ full)
    exact congrArg VcXn.reply (setXn_other (m.setFree k false) _ other).symm

/-- However the transaction goes, no more than the buffer takes is copied. -/
theorem Inv.run {m m' : VcXnManager} {req : RdmaReq} {p : VcXnParams}
    (fresh : ∀ j b, (m.ring j).reply = some b → b.call ≠ t) (sent : req.params = some p)
    (popped : m.popFree = some (i, m'))
    (met : Reachable (XnWait.step i t) (XnWait.ok i t)
      (fun w => w = { mngr := m'.setXn i ((m'.ring i).setUp t p) }) w) :
    Inv i t req.recvSize w :=
  met.invariant (fun _ first => first ▸ Inv.start fresh sent popped)
    fun _ _ _ held fine moved => held.step fine moved

end XnWait

theorem RdmaReq.recvSize_le (req : RdmaReq) : req.recvSize ≤ req.recvLen.getD 0 :=
  Nat.min_le_left ..

theorem rdmaReturn_meets_error {r : VcRet} (req : RdmaReq) (copied : Nat) (bad : r.isErr) :
    (rdmaReturn r).Meets req copied := by
  cases r with
  | size n => simp [VcRet.isErr] at bad
  | _ => rfl

/-- What the caller gets once its slot has been given back. -/
theorem XnWait.Story.meets {i t : Nat} {w : XnWait} {req : RdmaReq}
    (v : Story i t req.recvSize w) :
    (rdmaReturn (w.mngr.finish i).2).Meets req w.copied ↔
      ∀ x, w.answer = some x → x.dataLen ≤ req.recvSize := by
  have bad (r : VcRet) (ends : (w.mngr.finish i).2 = r) (err : r.isErr) (none : w.answer = none) :
      (rdmaReturn (w.mngr.finish i).2).Meets req w.copied ↔
        ∀ x, w.answer = some x → x.dataLen ≤ req.recvSize := by
    rw [ends, none]
    exact iff_of_true (rdmaReturn_meets_error req _ err) (fun x same => by simp at same)
  cases v with
  | waiting state _ _ none => exact bad .etime (by simp only [VcXnManager.finish, state]) rfl none
  | failed state _ none => exact bad .eio (by simp only [VcXnManager.finish, state]) rfl none
  | shut state _ none => exact bad .enxio (by simp only [VcXnManager.finish, state]) rfl none
  | success m state taken short sz copied =>
      have ends : (w.mngr.finish i).2 = .size m.dataLen := by
        simp only [VcXnManager.finish, state, sz]
      have within := req.recvSize_le
      rw [ends, taken, copied]
      simp only [rdmaReturn, RdmaRet.Meets, u16, Nat.mod_eq_of_lt short, Option.some.injEq]
      constructor
      · rintro ⟨same, -⟩ x rfl
        omega
      · intro fits
        have := fits m rfl
        omega

/-- Arguments that are refused leave the length alone. Otherwise what is copied stays within the
buffer, and the length reported is that of what is copied exactly when the whole reply fits. -/
theorem rdma_length_iff {m : VcXnManager} {t : Nat}
    (fresh : ∀ j b, (m.ring j).reply = some b → b.call ≠ t) :
    (∀ req : RdmaReq, req.params = none →
      (req.refused.Meets req 0 ↔ req.recvLen.getD 0 = 0)) ∧
    ∀ (req : RdmaReq) (p : VcXnParams) (r : VcRet) (copied : Nat) (answer : Option VcMsg),
      req.params = some p → XnExec m t p r copied answer →
        copied ≤ req.recvSize ∧
          ((rdmaReturn r).Meets req copied ↔ ∀ x, answer = some x → x.dataLen ≤ req.recvSize) := by
  refine ⟨fun req _ => Iff.rfl, fun req p r copied answer sent ran => ?_⟩
  have quiet {r : VcRet} {copied : Nat} (err : r.isErr) :
      (rdmaReturn r).Meets req copied ↔
        ∀ x : VcMsg, none = some x → x.dataLen ≤ req.recvSize :=
    iff_of_true (rdmaReturn_meets_error req _ err) (fun x same => by simp at same)
  cases ran with
  | full _ => exact ⟨Nat.zero_le _, quiet rfl⟩
  | down _ _ _ _ => exact ⟨Nat.zero_le _, quiet rfl⟩
  | failed i e m' w popped _ met =>
      exact ⟨(XnWait.Inv.run fresh sent popped met).story.copied_le, quiet rfl⟩
  | waited i m' w popped _ met =>
      have v := (XnWait.Inv.run fresh sent popped met).story
      exact ⟨v.copied_le, v.meets⟩

def rdmaMngr : VcXnManager :=
  ⟨fun _ => { state := .idle }, fun i => decide (i < vcXnRingLen), 0, true⟩

def rdmaSmall : RdmaReq := ⟨8, true, some 16⟩

/-- A reply of `n` bytes to the first request. -/
def rdmaReply (n : Nat) : VcMsg := ⟨vcCookie 0 0, vcOpRdma, 0, n, some 0⟩

theorem rdmaMngr_fresh (t : Nat) : ∀ j b, (rdmaMngr.ring j).reply = some b → b.call ≠ t := by
  intro j b full
  simp [rdmaMngr] at full

def rdmaPopped : VcXnManager :=
  { (rdmaMngr.setFree 0 false).setXn 0 { rdmaMngr.ring 0 with salt := 0 } with salt := 1 }

def rdmaParams : VcXnParams := { recvBuf := some 16, vcOp := vcOpRdma }

def rdmaSent : XnWait := { mngr := rdmaPopped.setXn 0 ((rdmaPopped.ring 0).setUp 0 rdmaParams) }

def rdmaAnswered (n : Nat) : XnWait where
  mngr := rdmaSent.mngr.setXn 0
    { rdmaSent.mngr.ring 0 with replySz := n, state := .completedSuccess }
  copied := min 16 n
  answer := some (rdmaReply n)

theorem rdmaSent_ring : rdmaSent.mngr.ring 0 =
    { state := .waiting, reply := some ⟨0, 16⟩, vcOp := vcOpRdma } := rfl

theorem rdmaSent_step {n : Nat} (bytes : n ≠ 0) :
    rdmaSent.step 0 0 (.reply (rdmaReply n) 0) = some (rdmaAnswered n) := by
  have heard : rdmaSent.mngr.forwardReply (rdmaReply n) 0 =
      { mngr := (rdmaAnswered n).mngr, signal := some 0, wrote := some ⟨0, 16⟩ } := by
    simp [VcXnManager.forwardReply, rdmaReply, vcCookieIdx, vcCookieSalt, vcCookie, vcXnRingLen,
      rdmaSent_ring, rdmaAnswered, bytes]
  simp [XnWait.step, heard, rdmaSent_ring, XnWait.copies, rdmaAnswered, XnWait.setXn_same]
  simp [rdmaSent, rdmaReply]

theorem rdmaSmall_exec {n : Nat} (short : n < 65536) (bytes : n ≠ 0) :
    XnExec rdmaMngr 0 rdmaParams (.size n) (min 16 n) (some (rdmaReply n)) := by
  have fine : rdmaSent.ok 0 0 (.reply (rdmaReply n) 0) := short
  have met : Reachable (XnWait.step 0 0) (XnWait.ok 0 0) (fun w => w = rdmaSent)
      (rdmaAnswered n) := .next (.start rfl) fine (rdmaSent_step bytes)
  exact .waited 0 rdmaPopped (rdmaAnswered n) rfl (by decide) met

/-- 4 bytes fit. -/
theorem rdma_length_short : (rdmaReturn (.size 4)).Meets rdmaSmall 4 := by
  have all := (rdma_length_iff (rdmaMngr_fresh 0)).2 rdmaSmall _ _ _ _ rfl
    (rdmaSmall_exec (n := 4) (by decide) (by decide))
  exact all.2.2 fun x same => by
    obtain rfl := Option.some.inj same
    decide

/-- Of 40 bytes 16 are copied, and 40 reported. -/
theorem rdma_length_untrue :
    ∃ p copied answer, rdmaSmall.params = some p ∧ XnExec rdmaMngr 0 p (.size 40) copied answer ∧
      copied = 16 ∧ rdmaReturn (.size 40) = ⟨none, some 40⟩ ∧
      ¬(rdmaReturn (.size 40)).Meets rdmaSmall copied :=
  ⟨_, _, _, rfl, rdmaSmall_exec (n := 40) (by decide) (by decide), rfl, rfl,
    by simp [rdmaReturn, RdmaRet.Meets, u16]⟩

end Idpf
