/-
When a slot is named in the configuration.

It is the other slot, always. That the last download into it was a success is
not what `get_size` says: a download that fails behind its first byte leaves it
set, and so does one that is refused for its url.
-/

import XR872.Ota.Landing
import XR872.Ota.Service

namespace XR872.Ota

open BitView
open Images
open Memories
open Runs

/-- `sizeof(digest)`, in words. -/
def OtaDigest.words : OtaDigest → Nat
  | .crc32 => 1
  | .md5 => 4
  | .sha1 => 5
  | .sha256 => 8

section

variable (platform : OtaPlatform)

/-- The digest asked for is that of the image a download has left, without the
verify data at its end. -/
def DigestHolds (seq : ImageSeq) (verify : OtaVerify)
    (value : Option (List (BitVec 32))) (result : OtaResult) : Prop :=
  match verify with
  | .none => True
  | .digest algorithm =>
      platform.iop.blSize + otaVerifyDataSize ≤ result.getSize ∧
        ∃ given, value = some given ∧
          given.take algorithm.words =
            (platform.digest algorithm result.getSize
              (load (result.mem (platform.iop.flash seq))
                (platform.iop.addr seq)
                (result.getSize - platform.iop.blSize -
                  otaVerifyDataSize))).take algorithm.words
  | .other => False

/-- A call that gets to `image_set_cfg` names the sequence that the policy has
for the running one, which is another; the last download was a success, and
what was asked for holds of the image it has left. -/
def CommitsRightly (state : OtaState) (call : OtaCall) : Prop :=
  ∀ cfg, (otaCall platform state call).setCfg = some cfg →
    cfg.state = .verified ∧
      otaUpdateSeqPolicy[platform.iop.runningSeq.toNat]? = some cfg.seq ∧
      cfg.seq ≠ platform.iop.runningSeq ∧
      state.last = some .ok ∧
      ∃ result, state.written = some result ∧ result.status = .ok ∧
        ∃ verify value env answer,
          call = .verifyImage verify value env answer ∧
            DigestHolds platform cfg.seq verify value result

/-- Behind a download that has failed and left `get_size` set, no check is asked
for that passes. -/
def CommitsFresh (state : OtaState) (call : OtaCall) : Prop :=
  match call with
  | .verifyImage verify value env _ =>
      state.last = some .error → state.getSize ≠ 0 →
        verify = .none ∨ value ≠ none →
          verifyBy platform platform.iop state.getSize state.mem env
            (otaGetUpdateSeq (some platform.iop)) (value.getD []) verify ≠ .ok
  | _ => True

/-! ### The update sequence -/

/-- The sequence to be updated, if there is one, is the one of the policy, and
never the running one. -/
theorem otaGetUpdateSeq_policy (iop : ImageOtaParam)
    (below : (otaGetUpdateSeq (some iop)).toNat < imageSeqNum) :
    iop.imgMaxSize ≠ 0 ∧ iop.blSize ≠ 0 ∧
      otaUpdateSeqPolicy[iop.runningSeq.toNat]? =
        some (otaGetUpdateSeq (some iop)) ∧
      otaGetUpdateSeq (some iop) ≠ iop.runningSeq := by
  unfold otaGetUpdateSeq at below ⊢
  dsimp only at below ⊢
  split at below
  · exact absurd below (by decide)
  · rename_i usable
    rw [if_neg usable]
    refine ⟨by omega, by omega, ?_⟩
    rcases seq_cases iop.runningSeq (by omega) with zero | one
    · rw [zero]
      decide
    · rw [one]
      decide

/-! ### What was appended -/

/-- The append loop reads what lies in the device, and all of it lies there. -/
theorem appendChunks_some (mSize : Nat) (small : mSize ≤ 2 ^ 28)
    (device : Nat → Byte) (chunks : List ChunkAnswer) (addr size : Nat)
    (onDevice : addr ≤ mSize) (data : List Byte)
    (appended : appendChunks mSize device chunks addr size = some data) :
    addr + size ≤ mSize ∧ data = load device addr size := by
  induction chunks generalizing addr size data with
  | nil =>
      cases size with
      | zero =>
          cases appended
          exact ⟨onDevice, rfl⟩
      | succ size => cases appended
  | cons chunk chunks ih =>
      cases size with
      | zero =>
          cases appended
          exact ⟨onDevice, rfl⟩
      | succ size =>
          have buffer : otaBufSize = 2048 := rfl
          have inside : (addr + min (size + 1) otaBufSize) % 2 ^ 32 =
              addr + min (size + 1) otaBufSize :=
            Nat.mod_eq_of_lt (by omega)
          unfold appendChunks at appended
          dsimp only at appended
          rw [inside] at appended
          split at appended
          · cases appended
          · split at appended
            · cases appended
            · split at appended
              · cases appended
              · obtain ⟨tail, later, rfl⟩ :=
                  Option.map_eq_some_iff.mp appended
                obtain ⟨fits, isTail⟩ := ih _ _ (by omega) tail later
                refine ⟨by omega, ?_⟩
                rw [isTail, ← load_append]
                congr 1
                omega

theorem verifySize_small (iop : ImageOtaParam) (getSize : Nat)
    (skipped : iop.blSize ≤ getSize) (sized : getSize < 2 ^ 32)
    (small : (verifySize iop getSize).toNat ≤ 2 ^ 28) :
    iop.blSize + otaVerifyDataSize ≤ getSize ∧
      (verifySize iop getSize).toNat =
        getSize - iop.blSize - otaVerifyDataSize := by
  have data : otaVerifyDataSize = 44 := rfl
  unfold verifySize at small ⊢
  rw [BitVec.toNat_sub, BitVec.toNat_sub, BitVec.toNat_ofNat,
    BitVec.toNat_ofNat, BitVec.toNat_ofNat, data] at small ⊢
  omega

theorem otaVerifyImageDigest_ok (iop : ImageOtaParam) (getSize : Nat)
    (mem : FlashMem) (env : DigestEnv) (seq : ImageSeq)
    (value : List (BitVec 32)) (algorithm : OtaDigest) (words : Nat)
    (passes : otaVerifyImageDigest platform iop getSize mem env seq value
      algorithm words = .ok) :
    ∃ data,
      otaVerifyImageAppend platform iop getSize mem env seq = some data ∧
        value.take words =
          (platform.digest algorithm getSize data).take words := by
  unfold otaVerifyImageDigest at passes
  split at passes
  · cases passes
  · split at passes
    · cases passes
    · rename_i data appended
      split at passes
      · cases passes
      · split at passes
        · rename_i same
          exact ⟨data, appended, same⟩
        · cases passes

theorem otaVerifyImageAppend_some (getSize : Nat) (mem : FlashMem)
    (env : DigestEnv) (seq : ImageSeq) (data : List Byte)
    (appended : otaVerifyImageAppend platform platform.iop getSize mem env seq =
      some data) :
    (verifySize platform.iop getSize).toNat ≤ 2 ^ 28 ∧
      data = load (mem (platform.iop.flash seq)) (platform.iop.addr seq)
        (verifySize platform.iop getSize).toNat := by
  have small := platform.small (platform.iop.flash seq)
  have onDevice := platform.onDevice seq
  unfold otaVerifyImageAppend at appended
  split at appended
  · cases appended
  · split at appended
    · cases appended
    · obtain ⟨fits, isData⟩ := appendChunks_some _ small _ _ _ _ (by omega) _
        appended
      exact ⟨by omega, isData⟩

/-- A digest that is right is right of the image, if it has the size that was
received. -/
theorem verifyBy_holds (state : OtaState) (env : DigestEnv) (seq : ImageSeq)
    (verify : OtaVerify) (value : Option (List (BitVec 32)))
    (result : OtaResult) (given : verify = .none ∨ value ≠ none)
    (sameMem : result.mem = state.mem)
    (sameSize : result.getSize = state.getSize)
    (skipped : platform.iop.blSize ≤ result.getSize)
    (sized : result.getSize < 2 ^ 32)
    (passes : verifyBy platform platform.iop state.getSize state.mem env seq
      (value.getD []) verify = .ok) :
    DigestHolds platform seq verify value result := by
  have digest : ∀ algorithm, verify = .digest algorithm →
      otaVerifyImageDigest platform platform.iop state.getSize state.mem env seq
        (value.getD []) algorithm algorithm.words = .ok := by
    rintro algorithm rfl
    cases algorithm <;> exact passes
  cases verify with
  | none => trivial
  | other => cases passes
  | digest algorithm =>
      obtain ⟨words, isGiven⟩ := Option.ne_none_iff_exists'.mp
        (given.resolve_left nofun)
      obtain ⟨data, appended, same⟩ :=
        otaVerifyImageDigest_ok platform _ _ _ _ _ _ _ _
          (digest algorithm rfl)
      obtain ⟨small, isData⟩ :=
        otaVerifyImageAppend_some platform _ _ _ _ _ appended
      rw [← sameSize] at small isData same
      obtain ⟨fits, size⟩ :=
        verifySize_small platform.iop result.getSize skipped sized small
      refine ⟨fits, words, isGiven, ?_⟩
      rw [isGiven] at same
      rw [sameMem, ← size, ← isData]
      exact same

/-! ### Runs -/

/-- What holds in every state: the service knows no parameters but the
platform's, `get_size` is set by a download only, and the flash is as the last
one has left it. -/
structure Linked (state : OtaState) : Prop where
  bound : ∀ iop, state.iop = some iop → iop = platform.iop
  received : state.getSize ≠ 0 →
    (otaGetUpdateSeq state.iop).toNat < imageSeqNum ∧ state.last ≠ none
  written : ∀ result, state.written = some result →
    result.mem = state.mem ∧
      (result.status = .ok →
        platform.iop.blSize ≤ result.getSize ∧ result.getSize < 2 ^ 32 ∧
          platform.check (otaGetUpdateSeq (some platform.iop)) result.mem =
            true)
  succeeded : state.last = some .ok →
    ∃ result, state.written = some result ∧ result.status = .ok ∧
      (state.getSize ≠ 0 → result.getSize = state.getSize)

/-- The download into the update sequence that `ota_get_image` starts. -/
def downloadOf (env : OtaEnv) (mem : FlashMem) : OtaResult :=
  let seq := otaGetUpdateSeq (some platform.iop)
  otaUpdateImageProcess platform.iop (platform.mSize (platform.iop.flash seq))
    env seq 0 mem platform.check

def behindDownload (result : OtaResult) (state : OtaState) : OtaState :=
  { state with
    iop := some platform.iop
    getSize := result.getSize
    mem := result.mem
    written := some result }

/-- What `ota_get_image` does: nothing, a fresh start that is given up, or a
download. -/
theorem otaGetImage_cases (protocol : OtaProtocol) (url : Option OtaEnv)
    (state : OtaState) :
    otaGetImage platform protocol url state = (.error, state) ∨
    otaGetImage platform protocol url state =
      (.error, otaInit platform state) ∨
    ∃ env, url = some env ∧ protocol ≠ .other ∧
      (otaGetUpdateSeq (some platform.iop)).toNat < imageSeqNum ∧
      otaGetImage platform protocol url state =
        ((downloadOf platform env state.mem).status,
          behindDownload platform (downloadOf platform env state.mem)
            state) := by
  cases url with
  | none => exact .inl rfl
  | some env =>
      right
      have update : otaUpdateImage platform env (otaInit platform state) =
          (.error, otaInit platform state) ∨
          (otaGetUpdateSeq (some platform.iop)).toNat < imageSeqNum ∧
            otaUpdateImage platform env (otaInit platform state) =
              ((downloadOf platform env state.mem).status,
                behindDownload platform (downloadOf platform env state.mem)
                  state) := by
        unfold otaUpdateImage
        dsimp only [otaInit]
        split
        · rename_i below
          exact .inr ⟨below, rfl⟩
        · exact .inl rfl
      cases protocol with
      | other => exact .inl rfl
      | file =>
          rcases update with failed | ⟨below, done⟩
          · exact .inl failed
          · exact .inr ⟨env, rfl, nofun, below, done⟩
      | http =>
          rcases update with failed | ⟨below, done⟩
          · exact .inl failed
          · exact .inr ⟨env, rfl, nofun, below, done⟩

/-- What `ota_verify_image` does: nothing, or it gets to `image_set_cfg`. -/
theorem otaVerifyImage_cases (verify : OtaVerify)
    (value : Option (List (BitVec 32))) (env : DigestEnv) (answer : CfgAnswer)
    (state : OtaState)
    (bound : ∀ iop, state.iop = some iop → iop = platform.iop) :
    ((otaVerifyImage platform verify value env answer state).setCfg = none ∧
      (otaVerifyImage platform verify value env answer state).state = state ∧
      ((verify = .none ∨ value ≠ none) → state.getSize ≠ 0 →
        (otaGetUpdateSeq state.iop).toNat < imageSeqNum →
        verifyBy platform platform.iop state.getSize state.mem env
          (otaGetUpdateSeq (some platform.iop)) (value.getD []) verify ≠
            .ok)) ∨
    ∃ cfg : ImageCfg,
      cfg = {
        seq := otaGetUpdateSeq (some platform.iop)
        state := .verified } ∧
      (otaVerifyImage platform verify value env answer state).setCfg =
        some cfg ∧
      (otaVerifyImage platform verify value env answer state).state =
        { state with cfg := imageSetCfg answer cfg state.cfg } ∧
      (verify = .none ∨ value ≠ none) ∧ state.getSize ≠ 0 ∧
      (otaGetUpdateSeq (some platform.iop)).toNat < imageSeqNum ∧
      verifyBy platform platform.iop state.getSize state.mem env
        (otaGetUpdateSeq (some platform.iop)) (value.getD []) verify = .ok := by
  unfold otaVerifyImage
  dsimp only
  split
  · rename_i null
    refine .inl ⟨rfl, rfl, fun given => ?_⟩
    rcases given with none | some
    · exact absurd none null.1
    · exact absurd null.2 some
  · rename_i notNull
    have given : verify = .none ∨ value ≠ none := by
      by_cases none : verify = .none
      · exact .inl none
      · exact .inr fun null => notNull ⟨none, null⟩
    cases isBound : state.iop with
    | none =>
        exact .inl ⟨rfl, rfl, fun _ _ below => absurd below (by
          change ¬ (BitVec.ofNat 8 imageSeqNum).toNat < imageSeqNum
          decide)⟩
    | some iop =>
        rw [bound iop isBound]
        dsimp only
        split
        · rename_i behind
          exact .inl ⟨rfl, rfl, fun _ _ below => by omega⟩
        · rename_i below
          split
          · rename_i none
            exact .inl ⟨rfl, rfl, fun _ received => absurd none received⟩
          · rename_i received
            split
            · rename_i fails
              exact .inl ⟨rfl, rfl, fun _ _ _ => fails⟩
            · rename_i passes
              exact .inr ⟨_, rfl, rfl, rfl, given, received, by omega,
                not_not.mp passes⟩

theorem otaInit_linked (state : OtaState) (linked : Linked platform state) :
    Linked platform (otaInit platform state) where
  bound := fun _ same => (Option.some.inj same).symm
  received := fun received => absurd rfl received
  written := linked.written
  succeeded := by
    intro ok
    obtain ⟨result, written, success, _⟩ := linked.succeeded ok
    exact ⟨result, written, success, fun received => absurd rfl received⟩

theorem Linked.refused {state : OtaState} (linked : Linked platform state) :
    Linked platform { state with last := some .error } where
  bound := linked.bound
  received := fun received => ⟨(linked.received received).1, nofun⟩
  written := linked.written
  succeeded := nofun

theorem download_linked (state : OtaState) (env : OtaEnv)
    (below : (otaGetUpdateSeq (some platform.iop)).toNat < imageSeqNum) :
    Linked platform {
      behindDownload platform (downloadOf platform env state.mem) state with
      last := some (downloadOf platform env state.mem).status } where
  bound := fun _ same => (Option.some.inj same).symm
  received := fun _ => ⟨below, nofun⟩
  written := by
    intro result written
    cases written
    refine ⟨rfl, fun ok => ?_⟩
    have sized := (otaGetUpdateSeq_policy platform.iop below).1
    have small := platform.iop.sized
    obtain ⟨skipped, fits, valid⟩ := otaUpdateImageProcess_ok platform.iop _ env
      _ 0 state.mem platform.check (by omega) ok
    exact ⟨skipped, Nat.lt_of_le_of_lt fits small, valid⟩
  succeeded := fun ok => ⟨_, rfl, Option.some.inj ok, fun _ => rfl⟩

theorem otaStep_getImage (state : OtaState) (protocol : OtaProtocol)
    (url : Option OtaEnv) :
    otaStep platform state (.getImage protocol url) = {
      (otaGetImage platform protocol url state).2 with
      last := some (otaGetImage platform protocol url state).1 } := rfl

theorem otaStep_linked (state : OtaState) (call : OtaCall)
    (linked : Linked platform state) :
    Linked platform (otaStep platform state call) := by
  cases call with
  | init => exact otaInit_linked platform state linked
  | deinit =>
      have cleared := otaInit_linked platform state linked
      exact { cleared with
        bound := nofun
        received := fun received => absurd rfl received }
  | getVerifyData env => exact linked
  | getImage protocol url =>
      rw [otaStep_getImage]
      rcases otaGetImage_cases platform protocol url state with
        same | same | ⟨env, _, _, below, same⟩
      · rw [same]
        exact linked.refused platform
      · rw [same]
        exact (otaInit_linked platform state linked).refused platform
      · rw [same]
        exact download_linked platform state env below
  | verifyImage verify value env answer =>
      change Linked platform
        (otaVerifyImage platform verify value env answer state).state
      rcases otaVerifyImage_cases platform verify value env answer state
        linked.bound with ⟨_, same, _⟩ | ⟨cfg, _, _, same, _⟩
      · rw [same]
        exact linked
      · rw [same]
        exact { linked with }

theorem Linked.ok_of_fresh {state : OtaState} (linked : Linked platform state)
    (verify : OtaVerify) (value : Option (List (BitVec 32))) (env : DigestEnv)
    (answer : CfgAnswer)
    (fresh : CommitsFresh platform state (.verifyImage verify value env answer))
    (received : state.getSize ≠ 0) (given : verify = .none ∨ value ≠ none)
    (passes : verifyBy platform platform.iop state.getSize state.mem env
      (otaGetUpdateSeq (some platform.iop)) (value.getD []) verify = .ok) :
    state.last = some .ok := by
  cases last : state.last with
  | none => exact absurd last (linked.received received).2
  | some status =>
      cases status with
      | ok => rfl
      | error => exact absurd passes (fresh last received given)

theorem commitsRightly_iff (state : OtaState) (call : OtaCall)
    (linked : Linked platform state) :
    CommitsRightly platform state call ↔ CommitsFresh platform state call := by
  cases call with
  | init => exact iff_of_true nofun trivial
  | deinit => exact iff_of_true nofun trivial
  | getVerifyData env => exact iff_of_true nofun trivial
  | getImage protocol url =>
      refine iff_of_true ?_ trivial
      intro cfg set
      cases set
  | verifyImage verify value env answer =>
      unfold CommitsRightly CommitsFresh
      dsimp only
      change (∀ cfg, (otaVerifyImage platform verify value env answer
        state).setCfg = some cfg → _) ↔ _
      rcases otaVerifyImage_cases platform verify value env answer state
        linked.bound with ⟨none, _, fails⟩ |
          ⟨cfg, isCfg, set, _, given, received, below, passes⟩
      · refine iff_of_true ?_ ?_
        · intro cfg set
          rw [none] at set
          cases set
        · intro _ received given
          exact fails given received (linked.received received).1
      · obtain ⟨_, _, policy, other⟩ :=
          otaGetUpdateSeq_policy platform.iop below
        constructor
        · intro rightly error _ _ _
          obtain ⟨_, _, _, ok, _⟩ := rightly cfg set
          rw [error] at ok
          cases ok
        · intro fresh cfg' set'
          rw [set] at set'
          cases set'
          subst isCfg
          have ok := linked.ok_of_fresh platform verify value env answer fresh
            received given passes
          obtain ⟨result, written, success, size⟩ := linked.succeeded ok
          obtain ⟨sameMem, image⟩ := linked.written result written
          obtain ⟨skipped, sized, _⟩ := image success
          refine ⟨rfl, policy, other, ok, result, written, success, verify,
            value, env, answer, rfl, ?_⟩
          exact verifyBy_holds platform state env _ verify value result given
            sameMem (size received) skipped sized passes

theorem start_linked (mem : FlashMem) (cfg : Option ImageCfg) :
    Linked platform (.start mem cfg) where
  bound := nofun
  received := fun received => absurd rfl received
  written := nofun
  succeeded := nofun

/-- In every order of calls, the commits are right exactly if no check that
passes is asked for behind a failed download that has left `get_size` set. -/
theorem commits_iff (mem : FlashMem) (cfg : Option ImageCfg)
    (calls : List OtaCall) :
    Along (otaStep platform) (CommitsRightly platform) (.start mem cfg) calls ↔
      Along (otaStep platform) (CommitsFresh platform) (.start mem cfg)
        calls :=
  along_iff_along (CommitsRightly platform) (CommitsFresh platform)
    (Linked platform) (otaStep_linked platform) (commitsRightly_iff platform)
    (.start mem cfg) (start_linked platform mem cfg) calls

end

/-- Two slots of two bytes on one device, and images that are always valid. -/
def smallPlatform : OtaPlatform where
  iop := twoByteSlots
  mSize := fun _ => 0x1000
  checkHeader := fun _ => true
  check := fun _ _ => true
  digest := fun _ _ _ => []
  small := fun _ => by decide
  onDevice := by
    intro seq
    have small := seq.isLt
    change 4 + 4 * seq.toNat + 2 ≤ 0x1000
    omega

/-- The connection is lost behind the bootloader. -/
def lostConnection : OtaEnv where
  stream := [1, 2, 3]
  erase := { done := true, left := [255, 255] }
  malloc := true
  init := .ok
  flashOpen := true
  turns := [
    { get := .piece 1 false, write := { done := true, left := [] } },
    { get := .failed, write := { done := true, left := [] } }]

def noDigest : DigestEnv where
  init := true
  flashOpen := true
  malloc := true
  chunks := []
  finish := true

/-- The slot is erased and nothing is written to it, and it is named. -/
theorem lostConnection_commits :
    ¬ Along (otaStep smallPlatform) (CommitsRightly smallPlatform)
      (.start (fun _ _ => 0) none)
      [.getImage .file (some lostConnection),
        .verifyImage .none none noDigest .done] := by
  rintro ⟨_, rightly, _⟩
  obtain ⟨_, _, _, ok, _⟩ := rightly { seq := 1, state := .verified } rfl
  cases ok

end XR872.Ota
