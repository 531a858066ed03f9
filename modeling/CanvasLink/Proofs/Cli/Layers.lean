import CanvasLink.Cli.Run
import CanvasLink.Proofs.Json.Members
import CanvasLink.Proofs.Json.Reading

/-!
# CanvasLink — layers of settings

Each of the eleven settings has a key in the config file and a default, and three of them have an
option on the command line of the daemon. An option goes before the key, and the key before the
default. Nothing that stands for one setting reaches another one.

* `Kind` — the types of settings, and how a setting of each is written.
* `Key.Takes` — what a setting comes from.
* `Config.ofMembers_iff`, `Config.IsFile.parse_iff` — the settings of a file, key by key.
* `Config.parse_encode` — a config that was written is read as itself.
* `prepare_daemon` — the daemon's task, given what the file says.
* **`settings_layered`** — the headline.
-/

namespace CanvasLink.Daemon

open CanvasLink.Bridge CanvasLink.Json

/-! ## Types of settings -/

/-- The types that settings have. -/
inductive Kind where
  | word16
  | word32
  | word64
  | text
  | texts
  | optionalText

namespace Kind

def Setting : Kind → Type
  | word16 => UInt16
  | word32 => UInt32
  | word64 => UInt64
  | text => String
  | texts => List String
  | optionalText => Option String

/-- What stands in a file for a setting. An integer is one of the range of its type. -/
def written : (t : Kind) → t.Setting → Source
  | word16, (n : UInt16) => .number (.integer n.toNat)
  | word32, (n : UInt32) => .number (.integer n.toNat)
  | word64, (n : UInt64) => .number (.integer n.toNat)
  | text, (s : String) => .string s
  | texts, (strings : List String) => .array (strings.map .string) true
  | optionalText, (s? : Option String) => s?.elim .null .string

/-- How a setting is decoded. -/
def decode : (t : Kind) → Decoder Source t.Setting
  | word16 => Decode.u16
  | word32 => Decode.u32
  | word64 => Decode.u64
  | text => Decode.string
  | texts => Decode.list Decode.string
  | optionalText => Decode.nullable Decode.string

/-- What stands in a file for a setting is all that is decoded as the setting. -/
theorem reads_decode : (t : Kind) → Decode.Reads t.decode t.written
  | word16 => Decode.reads_u16
  | word32 => Decode.reads_u32
  | word64 => Decode.reads_u64
  | text => Decode.reads_string
  | texts => Decode.reads_string.list
  | optionalText => Decode.reads_string.nullable nofun

/-- Different settings are written differently. -/
theorem written_injective {t : Kind} {b b' : t.Setting} (h : t.written b = t.written b') :
    b = b' := by
  have hread := (t.reads_decode (t.written b) b').2 h
  rw [(t.reads_decode (t.written b) b).2 rfl] at hread
  exact Except.ok.inj hread

/-- How a setting is encoded. -/
def value : (t : Kind) → t.Setting → Value
  | word16, (n : UInt16) => .int n.toNat
  | word32, (n : UInt32) => .int n.toNat
  | word64, (n : UInt64) => .int n.toNat
  | text, (s : String) => .string s
  | texts, (strings : List String) => .array (strings.map .string)
  | optionalText, (s? : Option String) =>
    match s? with
    | some s => .string s
    | none => .null

/-- The integers that stand for settings are within 64 bits. -/
theorem isWord_of_lt {n size : Nat} (hn : n < size) (hsize : size ≤ 2 ^ 64) : Number.IsWord n := by
  unfold Number.IsWord
  omega

/-- An integer of a machine word is written as itself at every depth. -/
theorem source_int {i : Int} (h : Number.IsWord i) (depth : Nat) :
    (Value.int i).source depth = .number (.integer i) := by
  rw [Value.int, Value.source, Number.reread?_integer h]
  rfl

/-- An encoded setting is read as it is written, within an object. -/
theorem source_value : (t : Kind) → (b : t.Setting) → (t.value b).source 1 = t.written b
  | word16, n => source_int (isWord_of_lt (UInt16.toNat_lt n) (by decide)) 1
  | word32, n => source_int (isWord_of_lt (UInt32.toNat_lt n) (by decide)) 1
  | word64, n => source_int (isWord_of_lt (UInt64.toNat_lt n) (Nat.le_refl _)) 1
  | text, _ => rfl
  | texts, strings => congrArg (Source.array · true) (Value.itemSources_string 2 strings)
  | optionalText, none => rfl
  | optionalText, some _ => rfl

/-- The only number of an integer is the integer. -/
theorem numbers_int {i : Int} (h : Number.IsWord i) :
    ∀ n ∈ (Value.int i).numbers, n.IsProper := by
  intro n hn
  rw [List.mem_singleton.1 hn]
  exact h

theorem numbers_strings (strings : List String) :
    ∀ n ∈ (Value.array (strings.map .string)).numbers, n.IsProper := by
  rw [Value.numbers, Value.itemNumbers_string]
  nofun

theorem numbers_value : (t : Kind) → (b : t.Setting) → ∀ n ∈ (t.value b).numbers, n.IsProper
  | word16, n => numbers_int (isWord_of_lt (UInt16.toNat_lt n) (by decide))
  | word32, n => numbers_int (isWord_of_lt (UInt32.toNat_lt n) (by decide))
  | word64, n => numbers_int (isWord_of_lt (UInt64.toNat_lt n) (Nat.le_refl _))
  | text, _ => nofun
  | texts, strings => numbers_strings strings
  | optionalText, none => nofun
  | optionalText, some _ => nofun

end Kind

/-! ## Keys -/

/-- The settings that have a key in a config file. -/
inductive Key where
  | port
  | debugHost
  | debugPort
  | urlPatterns
  | target
  | connectTimeout
  | settleDelay
  | probeTimeout
  | maxRetries
  | execTimeout
  | retryDelay

namespace Key

/-- The key, as it stands in a file. -/
def name : Key → String
  | port => "port"
  | debugHost => "debugHost"
  | debugPort => "debugPort"
  | urlPatterns => "urlPatterns"
  | target => "target"
  | connectTimeout => "connectTimeoutMs"
  | settleDelay => "settleDelayMs"
  | probeTimeout => "probeTimeoutMs"
  | maxRetries => "maxRetries"
  | execTimeout => "execTimeoutMs"
  | retryDelay => "retryDelayMs"

def kind : Key → Kind
  | port => .word16
  | debugHost => .text
  | debugPort => .word16
  | urlPatterns => .texts
  | target => .optionalText
  | connectTimeout => .word64
  | settleDelay => .word64
  | probeTimeout => .word64
  | maxRetries => .word32
  | execTimeout => .word64
  | retryDelay => .word64

/-- The type of the setting. -/
abbrev Setting (k : Key) : Type :=
  k.kind.Setting

/-- What stands under the key for a setting. -/
def written (k : Key) (b : k.Setting) : Source :=
  k.kind.written b

/-- The setting in a config. -/
def of (c : Config) : (k : Key) → k.Setting
  | port => c.port
  | debugHost => c.debugHost
  | debugPort => c.debugPort
  | urlPatterns => c.urlPatterns
  | target => c.target
  | connectTimeout => c.connectTimeout
  | settleDelay => c.settleDelay
  | probeTimeout => c.probeTimeout
  | maxRetries => c.maxRetries
  | execTimeout => c.execTimeout
  | retryDelay => c.retryDelay

/-- What a setting comes from: its option, else what stands under its key, else its default. -/
inductive Takes (k : Key) : Option k.Setting → Option Source → k.Setting → Prop
  | option (b : k.Setting) (found : Option Source) : Takes k (some b) found b
  | file (b : k.Setting) : Takes k none (some (k.written b)) b
  | default : Takes k none none (k.of {})

/-- What stands under a key is the setting that was written. -/
theorem takes_some_iff {k : Key} {source : Source} {b : k.Setting} :
    k.Takes none (some source) b ↔ source = k.written b := by
  constructor
  · rintro ⟨⟩
    rfl
  · rintro rfl
    exact .file b

/-- A setting comes from one place only. -/
theorem Takes.unique {k : Key} {option : Option k.Setting} {found : Option Source}
    {b b' : k.Setting} (h : k.Takes option found b) (h' : k.Takes option found b') : b = b' := by
  cases h with
  | option =>
    cases h'
    rfl
  | default =>
    cases h'
    rfl
  | file => exact Kind.written_injective (takes_some_iff.1 h')

/-- The field of a record that is read from the key. -/
def slot (k : Key) : Slot Source k.Setting :=
  .withDefault k.name k.kind.decode (k.of {})

/-- The field of a key takes what stands under the key, and its default where nothing does. -/
theorem takes_slot_iff {k : Key} {found : Option Source} {b : k.Setting} :
    k.slot.Takes found b ↔ k.Takes none found b := by
  cases found with
  | some source =>
    rw [Slot.takes_some_iff, takes_some_iff]
    exact k.kind.reads_decode source b
  | none =>
    rw [Slot.takes_none_iff]
    constructor
    · rintro ⟨⟩
      exact .default
    · rintro ⟨⟩
      rfl

/-- All keys, in the order in which a config is written. -/
def all : List Key :=
  [port, debugHost, debugPort, urlPatterns, target, connectTimeout, settleDelay, probeTimeout,
    maxRetries, execTimeout, retryDelay]

theorem mem_all (k : Key) : k ∈ all := by
  cases k <;> simp [all]

/-- The config of settings. -/
def config (f : (k : Key) → k.Setting) : Config :=
  { port := f port
    debugHost := f debugHost
    debugPort := f debugPort
    urlPatterns := f urlPatterns
    target := f target
    connectTimeout := f connectTimeout
    settleDelay := f settleDelay
    probeTimeout := f probeTimeout
    maxRetries := f maxRetries
    execTimeout := f execTimeout
    retryDelay := f retryDelay }

theorem of_config (f : (k : Key) → k.Setting) (k : Key) : k.of (config f) = f k := by
  cases k <;> rfl

end Key

namespace Config

/-! ## The settings of a file -/

theorem names_fields : (fields (α := Source)).names = Key.all.map Key.name :=
  rfl

theorem covered_fields : (fields (α := Source)).Covered :=
  Fields.covered_make _ |>.field _ |>.field _ |>.field _ |>.field _ |>.field _ |>.field _
    |>.field _ |>.field _ |>.field _ |>.field _ |>.field _

/-- **Each setting comes from its own key or its own default.** -/
theorem ofMembers_iff {find : String → Option Source} {c : Config} :
    fields.ofMembers find = .ok c ↔ ∀ k : Key, k.Takes none (find k.name) (k.of c) := by
  constructor
  · intro h
    -- The fields are taken off one by one, the last one first.
    obtain ⟨_, h₁₀, _, hretryDelay, rfl⟩ := Fields.ofMembers_field_iff.1 h
    obtain ⟨_, h₉, _, hexecTimeout, rfl⟩ := Fields.ofMembers_field_iff.1 h₁₀
    obtain ⟨_, h₈, _, hmaxRetries, rfl⟩ := Fields.ofMembers_field_iff.1 h₉
    obtain ⟨_, h₇, _, hprobeTimeout, rfl⟩ := Fields.ofMembers_field_iff.1 h₈
    obtain ⟨_, h₆, _, hsettleDelay, rfl⟩ := Fields.ofMembers_field_iff.1 h₇
    obtain ⟨_, h₅, _, hconnectTimeout, rfl⟩ := Fields.ofMembers_field_iff.1 h₆
    obtain ⟨_, h₄, _, htarget, rfl⟩ := Fields.ofMembers_field_iff.1 h₅
    obtain ⟨_, h₃, _, hurlPatterns, rfl⟩ := Fields.ofMembers_field_iff.1 h₄
    obtain ⟨_, h₂, _, hdebugPort, rfl⟩ := Fields.ofMembers_field_iff.1 h₃
    obtain ⟨_, h₁, _, hdebugHost, rfl⟩ := Fields.ofMembers_field_iff.1 h₂
    obtain ⟨_, h₀, _, hport, rfl⟩ := Fields.ofMembers_field_iff.1 h₁
    cases h₀
    intro k
    -- Each of the eleven facts is about the slot of its own key.
    refine Key.takes_slot_iff.1 ?_
    cases k <;> assumption
  · intro h
    have htakes (k : Key) : k.slot.Takes (find k.name) (k.of c) := Key.takes_slot_iff.2 (h k)
    exact Fields.ofMembers_make Config.mk find
      |> (Fields.ofMembers_field · (htakes .port))
      |> (Fields.ofMembers_field · (htakes .debugHost))
      |> (Fields.ofMembers_field · (htakes .debugPort))
      |> (Fields.ofMembers_field · (htakes .urlPatterns))
      |> (Fields.ofMembers_field · (htakes .target))
      |> (Fields.ofMembers_field · (htakes .connectTimeout))
      |> (Fields.ofMembers_field · (htakes .settleDelay))
      |> (Fields.ofMembers_field · (htakes .probeTimeout))
      |> (Fields.ofMembers_field · (htakes .maxRetries))
      |> (Fields.ofMembers_field · (htakes .execTimeout))
      |> (Fields.ofMembers_field · (htakes .retryDelay))

/-- A text that is one object with these members, in which no key stands twice. Other members may,
and they may hold anything. A name that escapes half of a surrogate pair is no text; an object with
one has no members that can be told. -/
structure IsFile (text : String) (members : List (String × Source)) : Prop where
  read : Document.read text.toList = ⟨.object members true, true⟩
  once : ∀ k : Key, (members.map Prod.fst).count k.name ≤ 1

namespace IsFile

variable {text : String} {members : List (String × Source)}

/-- No key of a config stands twice in a file. -/
theorem nodup_known (h : IsFile text members) : (fields.known members).Nodup := by
  rw [List.nodup_iff_count_le_one]
  intro name
  by_cases hname : name ∈ (fields (α := Source)).names
  · rw [names_fields] at hname
    obtain ⟨k, -, rfl⟩ := List.mem_map.1 hname
    exact (List.filter_sublist.count_le _).trans (h.once k)
  · have hunknown : name ∉ fields.known members := fun hmem =>
      hname (by simpa using (List.mem_filter.1 hmem).2)
    rw [List.count_eq_zero_of_not_mem hunknown]
    exact Nat.zero_le 1

/-- What stands in a file under a key is what is found there. -/
theorem lookup_eq_some_iff (h : IsFile text members) (k : Key) {source : Source} :
    members.lookup k.name = some source ↔ (k.name, source) ∈ members := by
  constructor
  · intro hlookup
    obtain ⟨before, after, rfl, -⟩ := List.lookup_eq_some_iff.1 hlookup
    simp
  · have hname : k.name ∈ (fields (α := Source)).names := List.mem_map_of_mem k.mem_all
    exact Fields.lookup_of_known h.nodup_known hname

/-- **A file is read key by key.** -/
theorem parse_iff (h : IsFile text members) {c : Config} :
    parse text = .ok c ↔ ∀ k : Key, k.Takes none (members.lookup k.name) (k.of c) := by
  have hdecode : parse text = .ok c ↔ fields.decodeMembers members true = .ok c := by
    have hroot : decode (Source.object members true) = fields.decodeMembers members true := rfl
    rw [parse, h.read]
    simp only [hroot, if_true]
    cases fields.decodeMembers members true with
    | ok config => simp
    | error e => cases e <;> simp
  rw [hdecode, Fields.decodeMembers_iff covered_fields, ofMembers_iff]
  exact and_iff_right h.nodup_known

/-- A file can be read exactly if every key holds a setting of its own. -/
theorem exists_parse_iff (h : IsFile text members) :
    (∃ c, parse text = .ok c) ↔
      ∀ k : Key, ∀ source, (k.name, source) ∈ members → ∃ b, source = k.written b := by
  simp only [h.parse_iff]
  constructor
  · rintro ⟨c, hc⟩ k source hsource
    have htakes := hc k
    rw [(h.lookup_eq_some_iff k).2 hsource, Key.takes_some_iff] at htakes
    exact ⟨_, htakes⟩
  · intro hwritten
    have hexists (k : Key) : ∃ b, k.Takes none (members.lookup k.name) b := by
      cases hlookup : members.lookup k.name with
      | none => exact ⟨_, .default⟩
      | some source =>
        obtain ⟨b, hb⟩ := hwritten k source ((h.lookup_eq_some_iff k).1 hlookup)
        exact ⟨b, Key.takes_some_iff.2 hb⟩
    -- The settings may be chosen apart from each other.
    choose f hf using hexists
    refine ⟨Key.config f, fun k => ?_⟩
    rw [Key.of_config]
    exact hf k

/-- Files that hold the same under every key are read as the same. -/
theorem parse_congr {text' : String} {members' : List (String × Source)}
    (h : IsFile text members) (h' : IsFile text' members')
    (hsame : ∀ k : Key, ∀ source, (k.name, source) ∈ members' ↔ (k.name, source) ∈ members)
    (c : Config) : parse text' = .ok c ↔ parse text = .ok c := by
  rw [h.parse_iff, h'.parse_iff]
  refine forall_congr' fun k => ?_
  have hlookup : members'.lookup k.name = members.lookup k.name := by
    ext source
    exact ((h'.lookup_eq_some_iff k).trans (hsame k source)).trans (h.lookup_eq_some_iff k).symm
  rw [hlookup]

end IsFile

/-! ## Written and read -/

/-- The members that a config is written with. -/
def members (c : Config) : List (String × Source) :=
  Key.all.map fun k => (k.name, k.written (k.of c))

theorem encode_eq (c : Config) :
    c.encode = .object (Key.all.map fun k => (k.name, k.kind.value (k.of c))) :=
  rfl

theorem numbers_encode (c : Config) : ∀ n ∈ c.encode.numbers, n.IsProper := by
  have hall (keys : List Key) : ∀ n ∈ Value.memberNumbers
      (keys.map fun k => (k.name, k.kind.value (k.of c))), n.IsProper := by
    induction keys with
    | nil => nofun
    | cons k keys ih => exact List.forall_mem_append.2 ⟨k.kind.numbers_value _, ih⟩
  exact hall Key.all

/-- A config is written as its members. -/
theorem source_encode (c : Config) : c.encode.source 0 = .object c.members true := by
  -- The members of the object lie one level deep.
  have hall (keys : List Key) : Value.memberSources 1
      (keys.map fun k => (k.name, k.kind.value (k.of c))) =
        keys.map fun k => (k.name, k.written (k.of c)) := by
    induction keys with
    | nil => rfl
    | cons k keys ih =>
      rw [List.map_cons, Value.memberSources, ih, k.kind.source_value]
      rfl
  rw [encode_eq, Value.source, hall]
  rfl

/-- A config that is written is a file with its members. -/
theorem isFile_encode (c : Config) : IsFile c.encode.compact c.members := by
  refine ⟨?_, fun k => ?_⟩
  · rw [Document.read_compact c.numbers_encode, source_encode]
  · have hkeys : c.members.map Prod.fst = Key.all.map Key.name := by
      rw [members, List.map_map]
      rfl
    rw [hkeys]
    exact List.nodup_iff_count_le_one.1 (by decide) k.name

/-- **A config that was written is read as itself.** -/
theorem parse_encode (c : Config) : parse c.encode.compact = .ok c := by
  refine c.isFile_encode.parse_iff.2 fun k => ?_
  have hmem : (k.name, k.written (k.of c)) ∈ c.members := List.mem_map_of_mem k.mem_all
  rw [(c.isFile_encode.lookup_eq_some_iff k).2 hmem]
  exact .file _

end Config

end CanvasLink.Daemon

namespace CanvasLink.Cli

open CanvasLink.Bridge CanvasLink.Daemon CanvasLink.Json

/-! ## Options and defaults around a file -/

/-- The option of the command line that stands for the setting, if there is one and it is given. -/
def givenOption (port debugPort : Option UInt16) (target : Option String) :
    (k : Key) → Option k.Setting
  | .port => port
  | .debugPort => debugPort
  | .target => target.map some
  | _ => none

/-- The daemon runs with the setting; spans of time are that many milliseconds. -/
def RunsWith (settings : DaemonSettings) : (k : Key) → k.Setting → Prop
  | .port, (n : UInt16) => settings.port = n
  | .debugHost, (host : String) => settings.bridge.debugHost = host
  | .debugPort, (n : UInt16) => settings.bridge.debugPort = n
  | .urlPatterns, (patterns : List String) => settings.bridge.patterns = patterns
  | .target, (title? : Option String) => settings.bridge.target = title?
  | .connectTimeout, (n : UInt64) => settings.bridge.connectTimeout = .ofMillis n.toNat
  | .settleDelay, (n : UInt64) => settings.bridge.settleDelay = .ofMillis n.toNat
  | .probeTimeout, (n : UInt64) => settings.bridge.probeTimeout = .ofMillis n.toNat
  | .maxRetries, (n : UInt32) => settings.retry.maxRetries = n
  | .execTimeout, (n : UInt64) => settings.retry.execTimeout = .ofMillis n.toNat
  | .retryDelay, (n : UInt64) => settings.retry.retryDelay = .ofMillis n.toNat

/-- An option that is given goes before what the config says; the other settings are those of the
config. -/
theorem runsWith_daemonSettings (c : Config) (pidPath : String) (port debugPort : Option UInt16)
    (target : Option String) (k : Key) :
    RunsWith (daemonSettings c pidPath port debugPort target) k
      ((givenOption port debugPort target k).getD (k.of c)) := by
  cases k with
  | target => cases target <;> rfl
  | _ => rfl

/-- A setting that has an option is the option, if it is given. -/
theorem takes_getD {k : Key} {found : Option Source} {b : k.Setting} (h : k.Takes none found b)
    (option : Option k.Setting) : k.Takes option found (option.getD b) := by
  cases option with
  | none => exact h
  | some b => exact .option b found

/-- The config file that goes with a command line: the one that it asks for, or else the one in the
default place, if there is one. -/
inductive Consults {m : Type → Type} [Monad m] (s : Surroundings m) : Option String → String → Prop
  | asked (path : String) : Consults s (some path) path
  | standard {path : String} (hplace : s.configPath = some path)
    (hexists : s.fileExists path = pure true) : Consults s none path

section Prepare

variable {m : Type → Type} [Monad m] [LawfulMonad m] {s : Surroundings m} {invocation : Invocation}
  {path text : String}

/-- The file that is consulted is parsed, and a failure names it. -/
theorem loadConfig_eq (hpath : Consults s invocation.config path)
    (htext : s.readFile path = pure (.ok text)) :
    (loadConfig s invocation.config).run = pure ((Config.parse text).mapError (.config path)) := by
  have hread : (readConfig s path).run = pure ((Config.parse text).mapError (.config path)) := by
    cases hparse : Config.parse text <;> simp [readConfig, htext, hparse, Except.mapError]
  generalize invocation.config = asked at hpath
  cases hpath with
  | asked => exact hread
  | standard hplace hexists => simp [loadConfig, hplace, hexists, hread]

/-- **The daemon's task.** -/
theorem prepare_daemon (hpath : Consults s invocation.config path)
    (htext : s.readFile path = pure (.ok text)) {debugPort : Option UInt16} {target : Option String}
    (hcommand : invocation.command = .daemon debugPort target) :
    (prepare s invocation).run = pure (((Config.parse text).mapError (.config path)).map fun c =>
      .runDaemon (daemonSettings c s.pidPath invocation.port debugPort target)) := by
  simp [prepare, loadConfig_eq hpath htext, hcommand]

end Prepare

/-- **Layers of settings do not reach each other.** A file that is an object without repeated keys
can be read exactly if under every key that stands there is a setting of its type and range, and
then each setting is the one under its own key, or its own default. So other files that hold the
same under every key, in whatever order and with whatever else in them, are read as the same; and a
config that was written is read as itself. The daemon runs with what the options say, then with what
the file says, then with the defaults, for each setting on its own; a file that cannot be read keeps
it from running. -/
theorem settings_layered {text : String} {members : List (String × Source)}
    (hfile : Config.IsFile text members) :
    ((∃ c, Config.parse text = .ok c) ↔
      ∀ k : Key, ∀ source, (k.name, source) ∈ members → ∃ b, source = k.written b) ∧
    (∀ c, Config.parse text = .ok c ↔
      ∀ k : Key, k.Takes none (members.lookup k.name) (k.of c)) ∧
    (∀ text' members', Config.IsFile text' members' →
      (∀ k : Key, ∀ source, (k.name, source) ∈ members' ↔ (k.name, source) ∈ members) →
        ∀ c, Config.parse text' = .ok c ↔ Config.parse text = .ok c) ∧
    (∀ c : Config, Config.parse c.encode.compact = .ok c) ∧
    ∀ (m : Type → Type) [Monad m] [LawfulMonad m] (s : Surroundings m) (path : String)
      (invocation : Invocation) (debugPort : Option UInt16) (target : Option String),
      Consults s invocation.config path → s.readFile path = pure (.ok text) →
        invocation.command = .daemon debugPort target →
        (∀ c, Config.parse text = .ok c → ∃ settings,
          (prepare s invocation).run = pure (.ok (.runDaemon settings)) ∧
          settings.pidPath = s.pidPath ∧
          ∀ k : Key, ∃ b, RunsWith settings k b ∧
            k.Takes (givenOption invocation.port debugPort target k) (members.lookup k.name) b) ∧
        ∀ reason, Config.parse text = .error reason →
          (prepare s invocation).run = pure (.error (.config path reason)) := by
  refine ⟨hfile.exists_parse_iff, fun c => hfile.parse_iff,
    fun text' members' hfile' hsame c => hfile.parse_congr hfile' hsame c, Config.parse_encode,
    fun m _ _ s path invocation debugPort target hpath htext hcommand => ?_⟩
  have hprepare := prepare_daemon hpath htext hcommand
  constructor
  · intro c hc
    rw [hc] at hprepare
    refine ⟨_, hprepare, rfl, fun k => ⟨_, runsWith_daemonSettings c _ _ _ _ k, ?_⟩⟩
    exact takes_getD (hfile.parse_iff.1 hc k) _
  · intro reason hreason
    rw [hreason] at hprepare
    exact hprepare

/-- A file with three settings and a member that is none. -/
def partialFile : String :=
  "\x7b\"debugPort\":9333,\"theme\":[true,null],\"target\":\"Landing\",\"execTimeoutMs\":5000\x7d"

def partialMembers : List (String × Source) :=
  [("debugPort", .number (.integer 9333)), ("theme", .array [.boolean true, .null] true),
   ("target", .string "Landing"), ("execTimeoutMs", .number (.integer 5000))]

/-- The text is a file with these members. -/
theorem isFile_partialFile : Config.IsFile partialFile partialMembers := by
  have htext : partialFile = (Value.object [("debugPort", .int 9333),
      ("theme", .array [.boolean true, .null]), ("target", .string "Landing"),
      ("execTimeoutMs", .int 5000)]).compact := by decide
  have hport : Number.IsWord 9333 := ⟨by decide, by decide⟩
  have hlimit : Number.IsWord 5000 := ⟨by decide, by decide⟩
  refine ⟨?_, fun k => by cases k <;> decide⟩
  rw [htext, Document.read_compact]
  · simp [Value.source, Value.memberSources, Value.itemSources, Value.nested, maxDepth,
      Kind.source_int hport, Kind.source_int hlimit, partialMembers]
  · simp [Value.numbers, Value.memberNumbers, Value.itemNumbers, Value.int, Number.IsProper, hport,
      hlimit]

/-- Surroundings with the file in the default place. -/
def partialSurroundings : Surroundings Id :=
  { readFile := fun _ => .ok partialFile
    fileExists := fun _ => true
    readInput := .ok ""
    configPath := some "config.json"
    pidPath := "daemon.pid" }

/-- The daemon with options for a port and a target. -/
def partialInvocation : Invocation :=
  { verbose := 0
    config := none
    port := some 4000
    command := .daemon none (some "Home") }

/-- The options give the port and the target, which goes before that of the file; the file gives the
debug port and the time limit; the rest is left to the defaults. -/
theorem settings_layered_partialFile :
    Config.IsFile partialFile partialMembers ∧ ∃ settings : DaemonSettings,
      (prepare partialSurroundings partialInvocation).run = .ok (.runDaemon settings) ∧
      settings.port = 4000 ∧ settings.bridge.target = some "Home" ∧
      settings.bridge.debugPort = 9333 ∧ settings.retry.execTimeout = .ofMillis 5000 ∧
      settings.bridge.debugHost = "127.0.0.1" := by
  refine ⟨isFile_partialFile, ?_⟩
  obtain ⟨-, hparse, -, -, hruns⟩ := settings_layered isFile_partialFile
  have hconfig : Config.parse partialFile =
      .ok { debugPort := 9333, target := some "Landing", execTimeout := 5000 } := by
    refine (hparse _).2 fun k => ?_
    cases k with
    | debugPort => exact Key.takes_some_iff.2 rfl
    | target => exact Key.takes_some_iff.2 rfl
    | execTimeout => exact Key.takes_some_iff.2 rfl
    | _ => exact .default
  obtain ⟨settings, hprepare, -, hsettings⟩ :=
    (hruns Id partialSurroundings "config.json" partialInvocation none (some "Home")
      (.standard rfl rfl) rfl rfl).1 _ hconfig
  refine ⟨settings, hprepare, ?_, ?_, ?_, ?_, ?_⟩
  · obtain ⟨_, hn, ⟨⟩⟩ := hsettings .port
    exact hn
  · obtain ⟨_, hn, ⟨⟩⟩ := hsettings .target
    exact hn
  · obtain ⟨n, hn, htakes⟩ := hsettings .debugPort
    obtain rfl : n = (9333 : UInt16) := htakes.unique (Key.takes_some_iff.2 rfl)
    exact hn
  · obtain ⟨n, hn, htakes⟩ := hsettings .execTimeout
    obtain rfl : n = (5000 : UInt64) := htakes.unique (Key.takes_some_iff.2 rfl)
    exact hn
  · obtain ⟨_, hn, ⟨⟩⟩ := hsettings .debugHost
    exact hn

end CanvasLink.Cli
