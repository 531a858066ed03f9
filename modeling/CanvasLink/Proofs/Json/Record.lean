import CanvasLink.Json.Record
import CanvasLink.Proofs.Outcomes
import Mathlib.Data.List.Nodup

/-!
# CanvasLink — records read from objects

What a decoded record says of the object that it was read from. Decoding goes through the members
as they stand and then makes the record; for the outcome the two together come to a look at each
field by its name.

* `Fields.Covered` — making the record reads every known member, so that the check is implied.
* **`Fields.decode_object_iff`** — an object is a record exactly if no field stands there twice and
  the record can be made from its members.
* `Fields.ofMembers_field_iff` — the record with one more field.
* `Decode.u64_iff`, `Decode.i64_iff`, `Decode.string_iff` — what the plain types take.
* `Decode.Reads` — what they take from a text.
-/

namespace CanvasLink.Json

variable {α β τ : Type}

/-! ## Plain types -/

theorem Decode.string_iff (v : Value) (s : String) : Decode.string v = .ok s ↔ v = .string s := by
  cases v <;> simp [Decode.string, mismatch, Readable.shape]

/-- A number is read as an integer exactly if it is one within the bounds. -/
theorem Decode.integer_shape_iff {α : Type} [Readable α] {name : String} {low high i : Int}
    {input : α} :
    Decode.integer name low high input = .ok i ↔
      Readable.shape input = .number (.integer i) ∧ low ≤ i ∧ i < high := by
  unfold Decode.integer mismatch
  cases Readable.shape input with
  | number n =>
    cases n with
    | integer j =>
      by_cases hj : low ≤ j ∧ j < high
      · simp only [if_pos hj, Except.ok.injEq, Shape.number.injEq, Number.integer.injEq]
        exact ⟨fun h => ⟨h, h ▸ hj⟩, And.left⟩
      · simp only [if_neg hj, Shape.number.injEq, Number.integer.injEq]
        exact ⟨nofun, fun ⟨h, hi⟩ => absurd (h ▸ hi) hj⟩
    | real x => simp
  | _ => simp

/-- A value is read as an integer exactly if it is one within the bounds. -/
theorem Decode.integer_iff {name : String} {low high i : Int} {v : Value} :
    Decode.integer name low high v = .ok i ↔ v = .int i ∧ low ≤ i ∧ i < high := by
  rw [integer_shape_iff]
  refine and_congr_left fun _ => ?_
  cases v <;> simp [Readable.shape, Value.int]

/-- An unsigned type takes the integers of its range. -/
theorem Decode.unsigned_shape_iff {α : Type} [Readable α] {name : String} {size : Nat}
    {ofNat : Nat → β} {toNat : β → Nat} (hofNat : ∀ {n}, n < size → toNat (ofNat n) = n)
    (htoNat : ∀ b, ofNat (toNat b) = b) (hlt : ∀ b, toNat b < size) {input : α} {b : β} :
    ((Decode.integer name 0 size input).map fun i => ofNat i.toNat) = .ok b ↔
      Readable.shape input = .number (.integer (toNat b)) := by
  rw [map_eq_ok]
  constructor
  · rintro ⟨i, hi, rfl⟩
    obtain ⟨hshape, hlow, hhigh⟩ := integer_shape_iff.1 hi
    have hsmall : i.toNat < size := by omega
    rw [hshape, hofNat hsmall, Int.toNat_of_nonneg hlow]
  · intro hshape
    have hsmall := hlt b
    exact ⟨toNat b, integer_shape_iff.2 ⟨hshape, by omega, by omega⟩, htoNat b⟩

section Unsigned

variable {α : Type} [Readable α] {input : α}

theorem Decode.u16_shape_iff {n : UInt16} :
    Decode.u16 input = .ok n ↔ Readable.shape input = .number (.integer n.toNat) :=
  unsigned_shape_iff UInt16.toNat_ofNat_of_lt' (fun _ => UInt16.ofNat_toNat) UInt16.toNat_lt

theorem Decode.u32_shape_iff {n : UInt32} :
    Decode.u32 input = .ok n ↔ Readable.shape input = .number (.integer n.toNat) :=
  unsigned_shape_iff UInt32.toNat_ofNat_of_lt' (fun _ => UInt32.ofNat_toNat) UInt32.toNat_lt

theorem Decode.u64_shape_iff {n : UInt64} :
    Decode.u64 input = .ok n ↔ Readable.shape input = .number (.integer n.toNat) :=
  unsigned_shape_iff UInt64.toNat_ofNat_of_lt' (fun _ => UInt64.ofNat_toNat) UInt64.toNat_lt

end Unsigned

theorem Decode.u64_iff (v : Value) (n : UInt64) :
    Decode.u64 v = .ok n ↔ v = .int n.toNat := by
  rw [u64_shape_iff]
  cases v <;> simp [Readable.shape, Value.int]

/-- Only a number that fits is read as a signed word of 64 bits. -/
theorem Decode.i64_iff (v : Value) (n : Int64) :
    Decode.i64 v = .ok n ↔ v = .int n.toInt := by
  rw [Decode.i64, map_eq_ok]
  constructor
  · rintro ⟨i, hi, rfl⟩
    obtain ⟨rfl, hlow, hhigh⟩ := Decode.integer_iff.1 hi
    rw [Int64.toInt_ofInt_of_le]
    · exact hlow
    · exact hhigh
  · rintro rfl
    refine ⟨n.toInt, Decode.integer_iff.2 ⟨rfl, ?_, ?_⟩, Int64.ofInt_toInt n⟩
    · exact Int64.le_toInt n
    · exact Int64.toInt_lt n

/-- What stands under a name where nothing needs to stand: nothing, null, or what `R` reads. -/
inductive Nullable (R : Value → β → Prop) : Option Value → Option β → Prop
  | absent : Nullable R none none
  | null : Nullable R (some .null) none
  | present {v : Value} {b : β} (hv : v ≠ .null) (h : R v b) : Nullable R (some v) (some b)

/-- A field that may be null holds nothing for null, and what is read of everything else. -/
theorem Decode.nullable_iff {decode : Decoder Value β} {R : Value → β → Prop}
    (hread : ∀ v b, decode v = .ok b ↔ R v b) {v : Value} {b? : Option β} :
    Decode.nullable decode v = .ok b? ↔ Nullable R (some v) b? := by
  by_cases hv : v = .null
  · subst hv
    show Except.ok none = .ok b? ↔ _
    constructor
    · rintro ⟨⟩
      exact .null
    · rintro (_ | _ | ⟨hne, -⟩)
      · rfl
      · exact absurd rfl hne
  · -- `null` is caught before the decoder is asked; any other value is its own affair.
    have hsome : Decode.nullable decode v = (decode v).map some := by
      cases v <;> first | rfl | exact absurd rfl hv
    rw [hsome, map_eq_ok]
    constructor
    · rintro ⟨b, hb, rfl⟩
      exact .present hv ((hread v b).1 hb)
    · rintro (_ | _ | ⟨-, hb⟩)
      · exact absurd rfl hv
      · exact ⟨_, (hread _ _).2 hb, rfl⟩

/-! ## Plain types in a text -/

/-- A decoder takes from a text exactly what is written in one way. -/
def Decode.Reads (decode : Decoder Source β) (write : β → Source) : Prop :=
  ∀ source b, decode source = .ok b ↔ source = write b

namespace Decode

theorem reads_string : Reads Decode.string .string := by
  intro source s
  cases source <;> simp [Decode.string, mismatch, Readable.shape]

theorem shape_source_eq_number_iff {source : Source} {n : Number} :
    Readable.shape source = .number n ↔ source = .number n := by
  cases source <;> simp [Readable.shape]

theorem reads_u16 : Reads Decode.u16 fun n => .number (.integer n.toNat) :=
  fun _ _ => u16_shape_iff.trans shape_source_eq_number_iff

theorem reads_u32 : Reads Decode.u32 fun n => .number (.integer n.toNat) :=
  fun _ _ => u32_shape_iff.trans shape_source_eq_number_iff

theorem reads_u64 : Reads Decode.u64 fun n => .number (.integer n.toNat) :=
  fun _ _ => u64_shape_iff.trans shape_source_eq_number_iff

/-- Items are read exactly if their list is closed and each of them is read. -/
theorem decodeItems_eq_ok_iff {decode : Decoder Source β} {write : β → Source}
    (h : Reads decode write) {closed : Bool} {items : List Source} {bs : List β} :
    decodeItems decode closed items = .ok bs ↔ closed = true ∧ items = bs.map write := by
  induction items generalizing bs with
  | nil => cases closed <;> simp [decodeItems, eq_comm]
  | cons item items ih =>
    rw [decodeItems, bind_eq_ok]
    simp only [h item, bind_eq_ok, ih]
    -- The list ends where the items do, so both are taken apart together.
    cases bs with
    | nil => simp [pure, Except.pure]
    | cons b bs =>
      simp only [pure, Except.pure, Except.ok.injEq, List.cons.injEq, List.map_cons]
      constructor
      · rintro ⟨_, hitem, _, ⟨hclosed, hitems⟩, rfl, rfl⟩
        exact ⟨hclosed, hitem, hitems⟩
      · rintro ⟨hclosed, hitem, hitems⟩
        exact ⟨b, hitem, bs, ⟨hclosed, hitems⟩, rfl, rfl⟩

/-- A list in a document is read as it is written, item by item. -/
theorem Reads.list {decode : Decoder Source β} {write : β → Source} (h : Reads decode write) :
    Reads (Decode.list decode) fun bs => .array (bs.map write) true := by
  intro source bs
  cases source with
  | array items closed =>
    rw [Source.array.injEq, and_comm]
    exact decodeItems_eq_ok_iff h
  | _ => simp [Decode.list, mismatch, Readable.shape]

/-- A field that may be null is read as it is written. -/
theorem Reads.nullable {decode : Decoder Source β} {write : β → Source} (h : Reads decode write)
    (hnull : ∀ b, write b ≠ .null) :
    Reads (Decode.nullable decode) fun b? => b?.elim .null write := by
  intro source b?
  have hpresent (hsource : source ≠ .null) : Decode.nullable decode source = .ok b? ↔
      source = b?.elim .null write := by
    -- `null` is the only source that is not handed to the decoder.
    have hsome : Decode.nullable decode source = (decode source).map some := by
      cases source <;> first | rfl | exact absurd rfl hsource
    rw [hsome, map_eq_ok]
    cases b? with
    | none => exact ⟨nofun, fun hsource' => absurd hsource' hsource⟩
    | some b => simp [h source]
  cases source with
  | null =>
    cases b? with
    | none => exact iff_of_true rfl rfl
    | some b => exact iff_of_false nofun fun hwrite => hnull b hwrite.symm
  | _ => exact hpresent nofun

end Decode

/-! ## Members -/

/-- What stands for a field: its member as decoded, or its default. -/
inductive Slot.Takes (slot : Slot α β) : Option α → β → Prop
  | found {input : α} {b : β} (h : slot.decode input = .ok b) : slot.Takes (some input) b
  | absent {b : β} (h : slot.absent = some b) : slot.Takes none b

theorem Slot.takes_some_iff {slot : Slot α β} {input : α} {b : β} :
    slot.Takes (some input) b ↔ slot.decode input = .ok b :=
  ⟨fun h => by cases h; assumption, .found⟩

theorem Slot.takes_none_iff {slot : Slot α β} {b : β} :
    slot.Takes none b ↔ slot.absent = some b :=
  ⟨fun h => by cases h; assumption, .absent⟩

/-- A member that is required is there and is read. -/
theorem Slot.takes_required_iff {name : String} {decode : Decoder α β} {input? : Option α} {b : β} :
    (Slot.required name decode).Takes input? b ↔
      ∃ input, input? = some input ∧ decode input = .ok b := by
  constructor
  · rintro (h | h)
    · exact ⟨_, rfl, h⟩
    · cases h
  · rintro ⟨input, rfl, h⟩
    exact .found h

/-- A member with a default is read if it is there, and has its default otherwise. -/
theorem Slot.takes_withDefault_iff {name : String} {decode : Decoder α β} {default b : β}
    {input? : Option α} :
    (Slot.withDefault name decode default).Takes input? b ↔
      (∃ input, input? = some input ∧ decode input = .ok b) ∨ input? = none ∧ b = default := by
  constructor
  · rintro (h | h)
    · exact .inl ⟨_, rfl, h⟩
    · exact .inr ⟨rfl, (Option.some.inj h).symm⟩
  · rintro (⟨input, rfl, h⟩ | ⟨rfl, rfl⟩)
    · exact .found h
    · exact .absent rfl

/-- A field that may be null or absent, whatever an array may leave out. -/
theorem Slot.takes_nullable_iff {decode : Decoder Value β} {R : Value → β → Prop}
    (hread : ∀ v b, decode v = .ok b ↔ R v b) {name : String} {omitted : Option (Option β)}
    {input? : Option Value} {b? : Option β} :
    (Slot.mk name (Decode.nullable decode) (some none) omitted).Takes input? b? ↔
      Nullable R input? b? := by
  constructor
  · rintro (h | h)
    · exact (Decode.nullable_iff hread).1 h
    · cases h
      exact .absent
  · intro h
    cases input? with
    | none =>
      cases h
      exact .absent rfl
    | some v => exact .found ((Decode.nullable_iff hread).2 h)

namespace Fields

variable {fields : Fields α τ} {members : List (String × α)}

/-- The names of the fields that stand in an object, as often as they do. -/
def known (fields : Fields α τ) (members : List (String × α)) : List String :=
  (members.map Prod.fst).filter (· ∈ fields.names)

/-- The check goes through if each known member is decodable and none stands there twice. -/
theorem checkMembers_iff {seen : List String} :
    fields.checkMembers seen members = .ok () ↔
      (∀ member ∈ members, member.1 ∈ fields.names → fields.check member.1 member.2 = .ok ()) ∧
        (fields.known members).Nodup ∧ ∀ name ∈ fields.known members, name ∉ seen := by
  induction members generalizing seen with
  | nil => simp [checkMembers, known]
  | cons member members ih =>
    obtain ⟨name, input⟩ := member
    -- Only the members a field is known by are checked, and only they may not repeat.
    by_cases hname : name ∈ fields.names
    · have hknown : fields.known ((name, input) :: members) = name :: fields.known members := by
        simp [known, hname]
      rw [hknown]
      by_cases hseen : name ∈ seen
      · simp [checkMembers, hname, hseen]
      · rw [checkMembers, if_pos hname, if_neg hseen, bind_eq_ok, List.forall_mem_cons,
          List.nodup_cons, List.forall_mem_cons]
        simp only [ih, List.mem_cons, not_or]
        constructor
        · rintro ⟨⟨⟩, hcheck, hrest, hnodup, hapart⟩
          refine ⟨⟨fun _ => hcheck, hrest⟩, ⟨fun hmem => (hapart name hmem).1 rfl, hnodup⟩, hseen,
            ?_⟩
          exact fun other hother => (hapart other hother).2
        · rintro ⟨⟨hcheck, hrest⟩, ⟨hfresh, hnodup⟩, -, hapart⟩
          refine ⟨(), hcheck hname, hrest, hnodup, fun other hother => ⟨?_, hapart other hother⟩⟩
          rintro rfl
          exact hfresh hother
    · have hknown : fields.known ((name, input) :: members) = fields.known members := by
        simp [known, hname]
      rw [hknown]
      simp [checkMembers, hname, ih]

/-- A member that stands in an object once is the one that is found under its name. -/
theorem lookup_of_known (hnodup : (fields.known members).Nodup) {name : String} {input : α}
    (hname : name ∈ fields.names) (hmem : (name, input) ∈ members) :
    members.lookup name = some input := by
  obtain ⟨before, after, rfl⟩ := List.append_of_mem hmem
  refine List.lookup_eq_some_iff.2 ⟨before, after, rfl, fun other hother => ?_⟩
  rw [known, List.map_append, List.filter_append, List.map_cons,
    List.filter_cons_of_pos (by simpa using hname)] at hnodup
  have hapart := (List.nodup_append.1 hnodup).2.2
  rw [bne_iff_ne]
  intro heq
  refine hapart name ?_ name List.mem_cons_self rfl
  exact List.mem_filter.2 ⟨List.mem_map.2 ⟨other, hother, heq.symm⟩, by simpa using hname⟩

/-- Making the record decodes every known member. -/
def Covered (fields : Fields α τ) : Prop :=
  ∀ find result, fields.ofMembers find = .ok result →
    ∀ name ∈ fields.names, ∀ input, find name = some input → fields.check name input = .ok ()

theorem covered_make (result : τ) : Covered (make result : Fields α τ) :=
  fun _ _ _ _ hname => absurd hname List.not_mem_nil

/-- **One more field.** -/
theorem ofMembers_field_iff {fields : Fields α (β → τ)} {slot : Slot α β}
    {find : String → Option α} {result : τ} :
    (fields.field slot).ofMembers find = .ok result ↔
      ∃ make, fields.ofMembers find = .ok make ∧
        ∃ b, slot.Takes (find slot.name) b ∧ make b = result := by
  show (fields.ofMembers find >>= _) = _ ↔ _
  rw [bind_eq_ok]
  refine exists_congr fun make => and_congr_right fun _ => ?_
  -- A member that is there has to decode; one that is not needs a default.
  cases hfind : find slot.name with
  | some input =>
    show (slot.decode input).map make = .ok result ↔ _
    rw [map_eq_ok]
    refine exists_congr fun b => and_congr_left fun _ => ?_
    exact ⟨.found, fun h => by cases h; assumption⟩
  | none =>
    constructor
    · intro h
      cases habsent : slot.absent with
      | none => simp [habsent] at h
      | some b => exact ⟨b, .absent habsent, by simpa [habsent] using h⟩
    · rintro ⟨b, htakes, rfl⟩
      cases htakes with
      | absent habsent => simp [habsent]

/-- A record of three fields. -/
theorem ofMembers_three_iff {γ₁ γ₂ γ₃ : Type} {mk : γ₁ → γ₂ → γ₃ → τ} {slot₁ : Slot α γ₁}
    {slot₂ : Slot α γ₂} {slot₃ : Slot α γ₃} {find : String → Option α} {result : τ} :
    ((((make mk).field slot₁).field slot₂).field slot₃).ofMembers find = .ok result ↔
      ∃ c₁ c₂ c₃, slot₁.Takes (find slot₁.name) c₁ ∧ slot₂.Takes (find slot₂.name) c₂ ∧
        slot₃.Takes (find slot₃.name) c₃ ∧ mk c₁ c₂ c₃ = result := by
  constructor
  · intro h
    obtain ⟨mk₂, h₂, c₃, htakes₃, rfl⟩ := ofMembers_field_iff.1 h
    obtain ⟨mk₁, h₁, c₂, htakes₂, rfl⟩ := ofMembers_field_iff.1 h₂
    obtain ⟨mk₀, h₀, c₁, htakes₁, rfl⟩ := ofMembers_field_iff.1 h₁
    cases h₀
    exact ⟨c₁, c₂, c₃, htakes₁, htakes₂, htakes₃, rfl⟩
  · rintro ⟨c₁, c₂, c₃, htakes₁, htakes₂, htakes₃, rfl⟩
    have h₀ : (make mk).ofMembers find = .ok mk := rfl
    have h₁ := ofMembers_field_iff.2 ⟨_, h₀, c₁, htakes₁, rfl⟩
    have h₂ := ofMembers_field_iff.2 ⟨_, h₁, c₂, htakes₂, rfl⟩
    exact ofMembers_field_iff.2 ⟨_, h₂, c₃, htakes₃, rfl⟩

/-- One field more reads one member more. -/
theorem Covered.field {fields : Fields α (β → τ)} (h : fields.Covered) (slot : Slot α β) :
    (fields.field slot).Covered := by
  intro find result hresult name hname input hinput
  obtain ⟨make, hmake, b, htakes, -⟩ := ofMembers_field_iff.1 hresult
  show (if name = slot.name then (slot.decode input).map fun _ => () else _) = _
  split
  · next heq =>
    rw [← heq, hinput] at htakes
    cases htakes with
    | found hdecode => exact map_eq_ok.2 ⟨b, hdecode, rfl⟩
  · -- An earlier field's name, already checked by the fields before.
    next hne =>
    have hbefore : name ∈ fields.names :=
      (List.mem_append.1 hname).resolve_right fun hlast => hne (List.mem_singleton.1 hlast)
    exact h find make hmake name hbefore input hinput

/-- Members are read as a record exactly if no known one stands twice and each field takes its
own. -/
theorem decodeMembers_iff {fields : Fields α τ} (hcovered : fields.Covered)
    {members : List (String × α)} {result : τ} :
    fields.decodeMembers members true = .ok result ↔
      (fields.known members).Nodup ∧
        fields.ofMembers (fun key => members.lookup key) = .ok result := by
  show (fields.checkMembers [] members >>= fun _ => fields.ofMembers _) = _ ↔ _
  rw [bind_eq_ok]
  constructor
  · rintro ⟨⟨⟩, hcheck, hresult⟩
    exact ⟨(checkMembers_iff.1 hcheck).2.1, hresult⟩
  · rintro ⟨hnodup, hresult⟩
    refine ⟨(), checkMembers_iff.2 ⟨?_, hnodup, fun _ _ => List.not_mem_nil⟩, hresult⟩
    intro member hmember hname
    exact hcovered _ _ hresult _ hname _ (lookup_of_known hnodup hname hmember)

/-- **A record from an object.** -/
theorem decode_object_iff {fields : Fields Value τ} (hcovered : fields.Covered) {name : String}
    {members : List (String × Value)} {result : τ} :
    fields.decode name (.object members) = .ok result ↔
      (fields.known members).Nodup ∧
        fields.ofMembers (fun key => members.lookup key) = .ok result :=
  decodeMembers_iff hcovered

/-! ## Items -/

/-- What stands for a field in an array, and what is left: the next item as decoded, or the default
at the end. -/
inductive TakesNext (slot : Slot α β) : List α → β → List α → Prop
  | found {input : α} {rest : List α} {b : β} (h : slot.decode input = .ok b) :
    TakesNext slot (input :: rest) b rest
  | omitted {b : β} (h : slot.omitted = some b) : TakesNext slot [] b []

/-- **One more item.** -/
theorem ofItems_field_iff {fields : Fields α (β → τ)} {slot : Slot α β} {short : Nat → DecodeError}
    {items rest : List α} {result : τ} :
    (fields.field slot).ofItems short true items = .ok (result, rest) ↔
      ∃ make left, fields.ofItems short true items = .ok (make, left) ∧
        ∃ b, TakesNext slot left b rest ∧ make b = result := by
  show (fields.ofItems short true items >>= _) = _ ↔ _
  rw [bind_eq_ok, Prod.exists]
  refine exists_congr fun make => exists_congr fun left => and_congr_right fun _ => ?_
  -- Items are taken in turn, and a slot without one falls back on its omission.
  cases left with
  | cons input left =>
    show (slot.decode input).map _ = _ ↔ _
    rw [map_eq_ok]
    constructor
    · rintro ⟨b, hb, ⟨⟩⟩
      exact ⟨b, .found hb, rfl⟩
    · rintro ⟨b, ⟨hb⟩, rfl⟩
      exact ⟨b, hb, rfl⟩
  | nil =>
    constructor
    · intro h
      cases homitted : slot.omitted with
      | none => simp [homitted] at h
      | some b =>
        simp only [homitted, if_true] at h
        cases h
        exact ⟨b, .omitted homitted, rfl⟩
    · rintro ⟨b, htakes, rfl⟩
      cases htakes with
      | omitted homitted => simp [homitted]

/-- A record of three fields. -/
theorem ofItems_three_iff {γ₁ γ₂ γ₃ : Type} {mk : γ₁ → γ₂ → γ₃ → τ} {slot₁ : Slot α γ₁}
    {slot₂ : Slot α γ₂} {slot₃ : Slot α γ₃} {short : Nat → DecodeError} {items rest : List α}
    {result : τ} :
    ((((make mk).field slot₁).field slot₂).field slot₃).ofItems short true items =
        .ok (result, rest) ↔
      ∃ c₁ c₂ c₃ left₁ left₂, TakesNext slot₁ items c₁ left₁ ∧ TakesNext slot₂ left₁ c₂ left₂ ∧
        TakesNext slot₃ left₂ c₃ rest ∧ mk c₁ c₂ c₃ = result := by
  constructor
  · intro h
    obtain ⟨mk₂, left₂, h₂, c₃, htakes₃, rfl⟩ := ofItems_field_iff.1 h
    obtain ⟨mk₁, left₁, h₁, c₂, htakes₂, rfl⟩ := ofItems_field_iff.1 h₂
    obtain ⟨mk₀, left₀, h₀, c₁, htakes₁, rfl⟩ := ofItems_field_iff.1 h₁
    cases h₀
    exact ⟨c₁, c₂, c₃, left₁, left₂, htakes₁, htakes₂, htakes₃, rfl⟩
  · rintro ⟨c₁, c₂, c₃, left₁, left₂, htakes₁, htakes₂, htakes₃, rfl⟩
    have h₀ : (make mk).ofItems short true items = .ok (mk, items) := rfl
    have h₁ := ofItems_field_iff.2 ⟨_, _, h₀, c₁, htakes₁, rfl⟩
    have h₂ := ofItems_field_iff.2 ⟨_, _, h₁, c₂, htakes₂, rfl⟩
    exact ofItems_field_iff.2 ⟨_, _, h₂, c₃, htakes₃, rfl⟩

/-- The error of an array that ends too early. -/
def tooShort (fields : Fields α τ) (name : String) (length : Nat) : DecodeError :=
  .invalidLength length ("struct " ++ name ++ " with " ++ toString fields.names.length ++
    (if fields.names.length == 1 then " element" else " elements"))

/-- **A record from an array**: every field has its item or its default, and nothing is left. -/
theorem decode_array_iff {fields : Fields Value τ} {name : String} {items : List Value}
    {result : τ} :
    fields.decode name (.array items) = .ok result ↔
      fields.ofItems (fields.tooShort name) true items = .ok (result, []) := by
  show (fields.ofItems (fields.tooShort name) true items >>= _) = _ ↔ _
  rw [bind_eq_ok]
  constructor
  · rintro ⟨⟨made, left⟩, hmade, h⟩
    cases left with
    | nil =>
      cases h
      exact hmade
    | cons item left => cases h
  · intro h
    exact ⟨_, h, rfl⟩

end Fields

end CanvasLink.Json
