/-!
# CanvasLink — settings of the bridge

Where the target application is found, which of its documents is meant, and the limits on
connecting, probing and executing.
-/

namespace CanvasLink.Bridge

/-- A span of time, in microseconds. -/
structure Duration where
  micros : Nat
deriving DecidableEq, Repr, Inhabited

namespace Duration

def ofMillis (n : Nat) : Duration :=
  ⟨1000 * n⟩

/-- Whole milliseconds; what is left is dropped. -/
def millis (d : Duration) : Nat :=
  d.micros / 1000

end Duration

/-- Is true only in a context that exposes the scripting root. -/
def existenceProbe : String := "typeof figma !== 'undefined'"

/-- URL fragments of the documents that can be attached to. -/
def defaultPatterns : List String :=
  ["figma.com/design/", "figma.com/file/", "figma.com/board/"]

/-- Where and how to attach to the target application. -/
structure Settings where
  debugHost : String := "127.0.0.1"
  debugPort : UInt16 := 9222
  /-- A document is eligible when its URL contains one of these. -/
  patterns : List String := defaultPatterns
  /-- A part of a title, or an id, that picks one document. -/
  target : Option String := none
  /-- Limit on the whole connect sequence. -/
  connectTimeout : Duration := .ofMillis 10000
  /-- Wait between asking for contexts and looking at those announced. -/
  settleDelay : Duration := .ofMillis 1000
  /-- Limit on the probe of a health check. -/
  probeTimeout : Duration := .ofMillis 2000
deriving DecidableEq, Repr

/-- Base URL of the endpoint's directory. -/
def Settings.endpoint (s : Settings) : String :=
  "http://" ++ s.debugHost ++ ":" ++ toString s.debugPort.toNat

/-- Bounded retry with a forced reconnect between attempts. -/
structure RetryPolicy where
  /-- Attempts after the first one. -/
  maxRetries : UInt32 := 2
  /-- Limit on one evaluation. -/
  execTimeout : Duration := .ofMillis 30000
  /-- Pause after a forced reconnect. -/
  retryDelay : Duration := .ofMillis 500
deriving DecidableEq, Repr

/-- The word behind which there is no other. -/
def lastWord : UInt32 := 4294967295

/-- The word behind another, if there is one. -/
def next? (n : UInt32) : Option UInt32 :=
  if n = lastWord then none else some (n + 1)

theorem toNat_succ_lt_of_ne_lastWord {n : UInt32} (h : n ≠ lastWord) :
    n.toNat + 1 < UInt32.size := by
  have hlt : n.toNat < UInt32.size := n.toNat_lt
  have hne : n.toNat ≠ lastWord.toNat := fun heq => h (UInt32.toNat_inj.1 heq)
  have hlast : lastWord.toNat + 1 = UInt32.size := rfl
  omega

theorem next?_eq_none_iff {n : UInt32} : next? n = none ↔ n = lastWord := by
  unfold next?
  split
  · next hlast => exact ⟨fun _ => hlast, fun _ => rfl⟩
  · next hne => exact ⟨nofun, fun hlast => absurd hlast hne⟩

/-- **No word behind another wraps.** -/
theorem next?_eq_some_iff {n m : UInt32} : next? n = some m ↔ m.toNat = n.toNat + 1 := by
  unfold next?
  split
  · next hlast =>
    have hlt : m.toNat < UInt32.size := m.toNat_lt
    have htop : n.toNat + 1 = UInt32.size := by rw [hlast]; rfl
    exact ⟨nofun, fun hm => by omega⟩
  · next hne =>
    have hsucc : (n + 1).toNat = n.toNat + 1 := by
      rw [UInt32.toNat_add]
      exact Nat.mod_eq_of_lt (toNat_succ_lt_of_ne_lastWord hne)
    rw [← hsucc, UInt32.toNat_inj, Option.some.injEq]
    exact eq_comm

/-- A word below another is not the last one. -/
theorem exists_next? {n bound : UInt32} (h : n < bound) : ∃ m, next? n = some m := by
  refine Option.ne_none_iff_exists'.1 fun hnone => ?_
  have hlast : n.toNat = 4294967295 := by rw [next?_eq_none_iff.1 hnone]; rfl
  have hlt := bound.toNat_lt
  rw [UInt32.lt_iff_toNat_lt] at h
  omega

/-- A number that is kept in a 32-bit word. Whoever asks for one that does not fit panics. -/
abbrev Count := Option UInt32

/-- The number, or zero where there is none. -/
def Count.toNat : Count → Nat
  | some n => n.toNat
  | none => 0

/-- Number of attempts. With as many retries as a word can tell there is none. -/
def RetryPolicy.attempts (p : RetryPolicy) : Count :=
  next? p.maxRetries

end CanvasLink.Bridge
