import AgentAssembly.Proofs.Session.Expiry
import AgentAssembly.Session.Service

/-!
The timeout that settings give. Main statement: where a word holds the seconds of accepted settings
the manager keeps every session for as long as its settings state and no longer; where it does not,
a build that checks its products panics over them, and one that does not loses sessions early.
-/

namespace AgentAssembly

section products

variable {a b : UInt64}

theorem Build.product_of_lt (h : a.toNat * b.toNat < UInt64.size) (build : Build) :
    ∃ c, build.product a b = .ok c ∧ c.toNat = a.toNat * b.toNat := by
  refine ⟨a * b, ?_, (UInt64.toNat_mul ..).trans (Nat.mod_eq_of_lt h)⟩
  cases build with
  | checked => exact if_pos h
  | wrapping => rfl

theorem Build.checked_product_of_le (h : UInt64.size ≤ a.toNat * b.toNat) :
    Build.checked.product a b = .error .overflow := if_neg (Nat.not_lt.mpr h)

end products

namespace Store

variable {calls : List Call} {id : String} {session : Session} {timeout : Nat}

/-- A stored session has the timeout of its store and tells when the calls last opened or found
it, whether or not its identifier was opened twice. -/
theorem stored_run (h : (run { timeout } calls).sessions.get? id = some session) :
    session.timeout = timeout ∧ lastActive? id { timeout } calls = some session.lastActivity := by
  induction calls using List.reverseRecOn generalizing session with
  | nil => simp [run] at h
  | append_singleton calls c ih =>
    rw [run_concat] at h
    cases effect (run { timeout } calls) c id with
    | opened project hopened hafter =>
      obtain rfl := Option.some.inj (hafter.symm.trans h)
      exact ⟨timeout_run _ calls, lastActive?_of_renews (Call.renews_of_opened hopened)⟩
    | renewed found project hopened hrenews hget hlive hafter =>
      obtain rfl := Option.some.inj (hafter.symm.trans h)
      exact ⟨(ih hget).1, lastActive?_of_renews hrenews⟩
    | removed hrenews hwhy hafter => simp [hafter] at h
    | kept hrenews hdelete hafter =>
      rw [lastActive?_of_not_renews hrenews]
      exact ih (hafter.symm.trans h)

/-- Whatever is done with the store, a session expires when it has been idle for longer, counted
from when the calls last opened or found it. -/
def ExpiresBy (s : Store) (idle : Nat) : Prop :=
  ∀ (calls : List Call) (id : String) (session : Session) (now : Timestamp),
    (s.run calls).sessions.get? id = some session →
      lastActive? id s calls = some session.lastActivity ∧
      (session.isExpiredAt now = true ↔ (idle : Int) < now.nanos - session.lastActivity.nanos)

theorem expiresBy_timeout : ExpiresBy { timeout } timeout := by
  intro calls id session now hget
  obtain ⟨htimeout, hactive⟩ := stored_run hget
  exact ⟨hactive, htimeout ▸ isExpiredAt_iff⟩

/-- Whatever is done with the store, no session expires before it has been idle for longer. -/
def KeepsFor (s : Store) (idle : Nat) : Prop :=
  ∀ (calls : List Call) (id : String) (session : Session) (now : Timestamp),
    (s.run calls).sessions.get? id = some session →
      now.nanos - session.lastActivity.nanos ≤ idle → session.isExpiredAt now = false

theorem keepsFor_iff {idle : Nat} : KeepsFor { timeout } idle ↔ idle ≤ timeout := by
  constructor
  · -- A session over any project has been idle for just so long when it is still to be live.
    intro h
    have hstored : (run { timeout } [⟨⟨0⟩, .insert "" (.blank ⟨0⟩ ⟨0⟩ "")⟩]).sessions.get? "" =
        some { id := "", project := .blank ⟨0⟩ ⟨0⟩ "", lastActivity := ⟨0⟩, timeout } :=
      get?_insert.trans (if_pos rfl)
    have hlive := h _ _ _ ⟨idle⟩ hstored (by simp)
    simpa [Session.isExpiredAt] using hlive
  · intro h calls id session now hget hidle
    have htimeout := (stored_run hget).1
    rw [Bool.eq_false_iff, ne_eq, isExpiredAt_iff]
    omega

end Store

namespace Manager

variable {settings : Settings} {build : Build}

theorem new_of_seconds (h : settings.fault? = none) {seconds : UInt64}
    (hseconds : settings.sessionTimeoutSeconds build = .ok seconds) :
    new build settings =
      .ok (.ok
        { settings, store := { timeout := seconds.toNat * Timestamp.nanosPerSecond } }) := by
  rw [new, h, hseconds]
  rfl

theorem new_of_panic (h : settings.fault? = none) {panic : Panic}
    (hpanic : settings.sessionTimeoutSeconds build = .error panic) :
    new build settings = .error panic := by
  rw [new, h, hpanic]
  rfl

/-- Where a word holds the seconds of accepted settings there is a manager in every build, and its
sessions expire by just the minutes that the settings state. Where it does not, a build that checks
its products panics; one that does not takes what is left of the seconds in the word, which is
always less than the settings state. -/
theorem timeout_of_settings {settings : Settings} (h : settings.fault? = none) :
    (settings.sessionTimeoutMinutes.toNat * 60 < UInt64.size → ∀ build,
      ∃ m seconds, new build settings = .ok (.ok m) ∧
        settings.sessionTimeoutSeconds build = .ok seconds ∧
        seconds.toNat = settings.sessionTimeoutMinutes.toNat * 60 ∧
        m.store.ExpiresBy
          (settings.sessionTimeoutMinutes.toNat * 60 * Timestamp.nanosPerSecond) ∧
        m.store.KeepsFor
          (settings.sessionTimeoutMinutes.toNat * 60 * Timestamp.nanosPerSecond)) ∧
    (UInt64.size ≤ settings.sessionTimeoutMinutes.toNat * 60 →
      settings.sessionTimeoutSeconds .checked = .error .overflow ∧
      new .checked settings = .error .overflow ∧
      ∃ m seconds, new .wrapping settings = .ok (.ok m) ∧
        settings.sessionTimeoutSeconds .wrapping = .ok seconds ∧
        seconds.toNat = settings.sessionTimeoutMinutes.toNat * 60 % UInt64.size ∧
        m.store.ExpiresBy (seconds.toNat * Timestamp.nanosPerSecond) ∧
        ¬ m.store.KeepsFor
          (settings.sessionTimeoutMinutes.toNat * 60 * Timestamp.nanosPerSecond)) := by
  constructor
  · intro hfits build
    obtain ⟨seconds, hseconds, hnat⟩ := Build.product_of_lt (b := 60) hfits build
    refine ⟨_, seconds, new_of_seconds h hseconds, hseconds, hnat, ?_, ?_⟩
    · rw [hnat]
      exact Store.expiresBy_timeout
    · rw [hnat]
      exact Store.keepsFor_iff.mpr (Nat.le_refl _)
  · intro hlarge
    have hpanic : settings.sessionTimeoutSeconds .checked = .error .overflow :=
      Build.checked_product_of_le hlarge
    have hnanos : 0 < Timestamp.nanosPerSecond := by decide
    have hless : (settings.sessionTimeoutMinutes * 60).toNat <
        settings.sessionTimeoutMinutes.toNat * 60 :=
      Nat.lt_of_lt_of_le (UInt64.toNat_lt_size _) hlarge
    refine ⟨hpanic, new_of_panic h hpanic, _, settings.sessionTimeoutMinutes * 60,
      new_of_seconds h rfl, rfl, UInt64.toNat_mul .., Store.expiresBy_timeout, ?_⟩
    rw [Store.keepsFor_iff, Nat.mul_le_mul_right_iff hnanos]
    exact Nat.not_le.mpr hless

theorem timeout_of_settings_default :
    ({} : Settings).fault? = none ∧
      ∃ m, new .checked {} = .ok (.ok m) ∧
        ({} : Settings).sessionTimeoutSeconds .checked = .ok 1800 ∧
        m.store.KeepsFor (1800 * Timestamp.nanosPerSecond) := by
  have haccepted : ({} : Settings).fault? = none := by decide
  obtain ⟨m, seconds, hnew, -, -, -, hkeeps⟩ :=
    (timeout_of_settings haccepted).1 (by decide) .checked
  exact ⟨haccepted, m, hnew, rfl, hkeeps⟩

/-- Settings that are accepted and whose minutes leave no seconds in the word. -/
def endlessSettings : Settings := { sessionTimeoutMinutes := 4611686018427387904 }

/-- These settings are accepted and yet start no manager; where products are not checked they come
to no timeout at all, which is refused elsewhere, and a session is lost a nanosecond after it is
opened. -/
theorem timeout_of_endlessSettings :
    endlessSettings.fault? = none ∧
      endlessSettings.sessionTimeoutSeconds .checked = .error .overflow ∧
      new .checked endlessSettings = .error .overflow ∧
      endlessSettings.sessionTimeoutSeconds .wrapping = .ok 0 ∧
      ∃ m, new .wrapping endlessSettings = .ok (.ok m) ∧
        ((m.store.insert ⟨0⟩ "s" (.blank ⟨0⟩ ⟨0⟩ "p")).get ⟨1⟩ "s").1 =
          .error (.sessionNotFound "s") :=
  ⟨by decide, by decide, rfl, by decide, _, rfl, by decide⟩

end Manager
end AgentAssembly
