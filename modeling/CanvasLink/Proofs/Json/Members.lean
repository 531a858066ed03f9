import CanvasLink.Proofs.Json.Record

/-!
# CanvasLink — records written as objects

A record is written as an object whose members are the fields, some of which are left out, and read
back field by field. What a field is read from, its member or the lack of one, is `Slot.Takes`.

* `lookup_presentMember`, `keys_presentMember` — members that are there only when they hold something.
* `Slot.takes_optional` — such a member gives back what it holds, or that it holds nothing.
* **`Fields.decode_written`** — members that hold every field once read as the record.
* `Fields.Gives` — what holds of every record that can be read.
-/

namespace CanvasLink.Json

variable {α β τ : Type}

/-! ## Members that may be left out -/

@[simp] theorem lookup_member (name key : String) (v : Value) (members : List (String × Value)) :
    ((name, v) :: members).lookup key = if key = name then some v else members.lookup key := by
  by_cases hkey : key = name
  · simp [hkey]
  · have hne : (key == name) = false := beq_eq_false_iff_ne.2 hkey
    simp [List.lookup_cons, hkey, hne]

@[simp] theorem lookup_presentMember (name key : String) (encode : β → Value) (b? : Option β) :
    (presentMember name encode b?).lookup key = if key = name then b?.map encode else none := by
  cases b? with
  | none => simp [presentMember]
  | some b => simp [presentMember]

/-- A member that may be left out is there once or not at all. -/
theorem keys_presentMember (name : String) (encode : β → Value) (b? : Option β) :
    ((presentMember name encode b?).map Prod.fst).Sublist [name] := by
  cases b? with
  | none => exact List.nil_sublist _
  | some b => exact List.Sublist.refl _

/-- A member that may be left out, behind others. -/
theorem keys_append_presentMember {members : List (String × Value)} {keys : List String}
    (h : (members.map Prod.fst).Sublist keys) (name : String) (encode : β → Value)
    (b? : Option β) :
    ((members ++ presentMember name encode b?).map Prod.fst).Sublist (keys ++ [name]) := by
  rw [List.map_append]
  exact h.append (keys_presentMember name encode b?)

/-! ## Fields and their members -/

namespace Slot

theorem takes_required {name : String} {decode : Decoder α β} {input : α} {b : β}
    (h : decode input = .ok b) : (required name decode).Takes (some input) b :=
  .found h

/-- A member with a default that is read is taken, and not its default. -/
theorem takes_withDefault {name : String} {decode : Decoder α β} {default : β} {input : α} {b : β}
    (h : decode input = .ok b) : (withDefault name decode default).Takes (some input) b :=
  .found h

/-- A field that may be null or absent, whatever an array may leave out, is read from a member that
is there when it holds something. -/
theorem takes_optional {name : String} {decode : Decoder Value β} {omitted : Option (Option β)}
    {input? : Option Value} {b? : Option β} (encode : β → Value) (hinput : input? = b?.map encode)
    (h : ∀ b ∈ b?, encode b ≠ .null ∧ decode (encode b) = .ok b) :
    (Slot.mk name (Decode.nullable decode) (some none) omitted).Takes input? b? := by
  subst hinput
  cases b? with
  | none => exact .absent rfl
  | some b =>
    obtain ⟨hnull, hdecode⟩ := h b rfl
    have hsome : Decode.nullable decode (encode b) = (decode (encode b)).map some := by
      cases hencoded : encode b <;> first | rfl | exact absurd hencoded hnull
    exact .found (hsome.trans (by rw [hdecode]; rfl))

/-- Whatever stands for a field has a property. -/
structure Gives (slot : Slot α β) (Q : β → Prop) : Prop where
  decoded : ∀ input b, slot.decode input = .ok b → Q b
  absent : ∀ b, slot.absent = some b → Q b
  omitted : ∀ b, slot.omitted = some b → Q b

/-- What a field gives with a property it gives with every weaker one. -/
theorem Gives.imp {slot : Slot α β} {Q R : β → Prop} (h : slot.Gives Q) (hQR : ∀ b, Q b → R b) :
    slot.Gives R :=
  ⟨fun input b hb => hQR b (h.decoded input b hb), fun b hb => hQR b (h.absent b hb),
    fun b hb => hQR b (h.omitted b hb)⟩

theorem gives_true (slot : Slot α β) : slot.Gives fun _ => True :=
  ⟨fun _ _ _ => trivial, fun _ _ => trivial, fun _ _ => trivial⟩

/-- A field that must be there. -/
theorem gives_required {name : String} {decode : Decoder α β} {Q : β → Prop}
    (h : ∀ input b, decode input = .ok b → Q b) : (required name decode).Gives Q :=
  ⟨h, nofun, nofun⟩

/-- A field that may be null or absent holds nothing, or what is read from a value other than null. -/
theorem gives_nullable {name : String} {decode : Decoder Value β} {omitted : Option (Option β)}
    {Q : β → Prop} (h : ∀ v b, v ≠ .null → decode v = .ok b → Q b)
    (homitted : ∀ b? ∈ omitted, b? = none) :
    (Slot.mk name (Decode.nullable decode) (some none) omitted).Gives fun b? => ∀ b ∈ b?, Q b := by
  refine ⟨fun v b? hread => ?_, fun b? habsent => ?_, fun b? hb => ?_⟩
  · -- What is promised of the values says nothing of `null`.
    have hnullable : Nullable (fun v b => decode v = .ok b) (some v) b? :=
      (Decode.nullable_iff fun _ _ => Iff.rfl).1 hread
    cases hnullable with
    | null => nofun
    | present hv hb =>
      rintro _ ⟨⟩
      exact h v _ hv hb
  · cases habsent
    nofun
  · rw [homitted b? hb]
    nofun

end Slot

namespace Fields

theorem ofMembers_make (result : τ) (find : String → Option α) :
    (make result).ofMembers find = .ok result :=
  rfl

/-- One more field that its member, or the lack of one, gives. -/
theorem ofMembers_field {fields : Fields α (β → τ)} {slot : Slot α β} {find : String → Option α}
    {make : β → τ} {b : β} (h : fields.ofMembers find = .ok make)
    (htakes : slot.Takes (find slot.name) b) : (fields.field slot).ofMembers find = .ok (make b) :=
  ofMembers_field_iff.2 ⟨make, h, b, htakes, rfl⟩

/-- No field stands twice among members whose keys are found in a list that holds each once. -/
theorem nodup_known {fields : Fields α τ} {members : List (String × α)} {keys : List String}
    (hkeys : (members.map Prod.fst).Sublist keys) (hnodup : keys.Nodup) :
    (fields.known members).Nodup :=
  (hkeys.nodup hnodup).filter _

/-- Members under different keys are read as the record that each field takes its part of. -/
theorem decodeMembers_written {fields : Fields α τ} (hcovered : fields.Covered)
    {members : List (String × α)} (keys : List String)
    (hkeys : (members.map Prod.fst).Sublist keys) (hnodup : keys.Nodup) {result : τ}
    (hresult : fields.ofMembers (fun key => members.lookup key) = .ok result) :
    fields.decodeMembers members true = .ok result :=
  (decodeMembers_iff hcovered).2 ⟨nodup_known hkeys hnodup, hresult⟩

/-- **A record that was written as an object reads as itself.** -/
theorem decode_written {fields : Fields Value τ} (hcovered : fields.Covered) {name : String}
    {members : List (String × Value)} (keys : List String)
    (hkeys : (members.map Prod.fst).Sublist keys) (hnodup : keys.Nodup) {result : τ}
    (hresult : fields.ofMembers (fun key => members.lookup key) = .ok result) :
    fields.decode name (.object members) = .ok result :=
  decodeMembers_written hcovered keys hkeys hnodup hresult

/-! ## What every record has -/

/-- Every record that is made from members or from items has a property. -/
structure Gives (fields : Fields α τ) (P : τ → Prop) : Prop where
  ofMembers : ∀ find result, fields.ofMembers find = .ok result → P result
  ofItems : ∀ short items result rest, fields.ofItems short true items = .ok (result, rest) → P result

/-- A record without fields has the properties of its result. -/
theorem gives_make {result : τ} {P : τ → Prop} (h : P result) :
    (make result : Fields α τ).Gives P := by
  refine ⟨fun find made hmade => ?_, fun short items made rest hmade => ?_⟩
  · cases hmade
    exact h
  · cases hmade
    exact h

/-- What holds of a record for every value of a field that has a property holds when the field gives
only such values. -/
theorem Gives.field {fields : Fields α (β → τ)} {slot : Slot α β} {Q : β → Prop} {P : τ → Prop}
    (h : fields.Gives fun make => ∀ b, Q b → P (make b)) (hslot : slot.Gives Q) :
    (fields.field slot).Gives P := by
  -- Once by the members' names and once by the items' order.
  refine ⟨fun find result hresult => ?_, fun short items result rest hresult => ?_⟩
  · obtain ⟨make, hmake, b, htakes, rfl⟩ := ofMembers_field_iff.1 hresult
    refine h.ofMembers find make hmake b ?_
    generalize find slot.name = input? at htakes
    cases htakes with
    | found hdecode => exact hslot.decoded _ b hdecode
    | absent habsent => exact hslot.absent b habsent
  · obtain ⟨make, left, hmake, b, htakes, rfl⟩ := ofItems_field_iff.1 hresult
    refine h.ofItems short items make left hmake b ?_
    cases htakes with
    | found hdecode => exact hslot.decoded _ b hdecode
    | omitted homitted => exact hslot.omitted b homitted

/-- **What every record has that can be read**, from an object or an array. -/
theorem Gives.decode {fields : Fields Value τ} {P : τ → Prop} (h : fields.Gives P) {name : String}
    {v : Value} {result : τ} (hread : fields.decode name v = .ok result) : P result := by
  cases v with
  | object members =>
    obtain ⟨_, -, hresult⟩ := bind_eq_ok.1 hread
    exact h.ofMembers _ result hresult
  | array items => exact h.ofItems _ items result [] (decode_array_iff.1 hread)
  | _ => cases hread

end Fields

end CanvasLink.Json
