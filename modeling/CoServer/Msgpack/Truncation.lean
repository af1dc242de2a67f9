import CoServer.Msgpack.Reader

/-!
The bytes that a value is unpacked from settle it: what follows them is left, and no
part at their front is enough.
-/

namespace CoServer.Msgpack

open FormatConstants
open Format

section Fetched

variable {α β : Type}

theorem local_map {read : Bytes → Option (α × Bytes)} (local_ : Local (fetched read))
    (convert : α → β) :
    Local (fetched fun data => (read data).map fun after => (convert after.1, after.2)) := by
  have same : (fetched fun data => (read data).map fun after => (convert after.1, after.2)) =
      (fetched read).as convert := by
    funext data
    rw [Reader.as, fetched, fetched]
    cases read data <;> rfl
  rw [same]
  exact local_.as convert

theorem fetched_bind (read : Bytes → Option (α × Bytes)) (next : α → Bytes → Option (β × Bytes)) :
    (fetched fun data => (read data).bind fun after => next after.1 after.2) =
      (fetched read).then_ fun value => fetched (next value) := by
  funext data
  rw [Reader.then_, fetched, fetched]
  cases read data <;> rfl

theorem local_bind {read : Bytes → Option (α × Bytes)} {next : α → Bytes → Option (β × Bytes)}
    (local_ : Local (fetched read)) (local' : ∀ value, Local (fetched (next value))) :
    Local (fetched fun data => (read data).bind fun after => next after.1 after.2) := by
  rw [fetched_bind]
  exact local_.then_ local'

theorem local_ite {condition : Prop} [Decidable condition] {first second : Bytes → Option (α × Bytes)}
    (local_ : Local (fetched first)) (local' : Local (fetched second)) :
    Local (fetched fun data => if condition then first data else second data) := by
  split
  · exact local_
  · exact local'

theorem local_value (value : α) : Local (fetched fun rest => some (value, rest)) := local_ok value

theorem local_nothing : Local (fetched fun _ => (none : Option (α × Bytes))) :=
  local_error Failure.exception

theorem local_readIntegral (width : Nat) : Local (fetched (readIntegral width)) := by
  have same : fetched (readIntegral width) =
      Reader.within width Failure.exception fun block => .ok (LittleEndian.value block.reverse, []) := by
    funext data
    rw [fetched, readIntegral, Reader.within]
    by_cases long : width ≤ data.length
    · rw [if_neg (Nat.not_lt.mpr long), if_pos long]
      rfl
    · rw [if_pos (Nat.lt_of_not_le long), if_neg long]
  rw [same]
  exact Local.within width Failure.exception _

theorem local_readBytes (size : Nat) : Local (fetched (readBytes size)) := by
  have same : fetched (readBytes size) =
      Reader.within size Failure.exception fun block => .ok (block, []) := by
    funext data
    rw [fetched, readBytes, Reader.within]
    by_cases long : size ≤ data.length
    · rw [if_pos long, if_pos long]
      rfl
    · rw [if_neg long, if_neg long]
  rw [same]
  exact Local.within size Failure.exception _

/-- A reader that takes at least the byte that it decides by. -/
def Headed (read : Bytes → Option (α × Bytes)) : Prop :=
  read [] = none ∧ ∀ byte, Local (fetched fun rest => read (byte :: rest))

theorem Headed.fetched_nil {read : Bytes → Option (α × Bytes)} (headed : Headed read) :
    fetched read [] = .error .exception := by
  rw [fetched, headed.1]

theorem Headed.local_ {read : Bytes → Option (α × Bytes)} (headed : Headed read) :
    Local (fetched read) := local_head headed.fetched_nil headed.2

theorem Headed.strict {read : Bytes → Option (α × Bytes)} (headed : Headed read) :
    Strict (fetched read) := strict_head headed.fetched_nil headed.2

theorem headed_takeByte : Headed takeByte := ⟨rfl, fun byte => local_value byte.toNat⟩

end Fetched

theorem headed_unpackHeader (constant16 constant32 : UInt8) :
    Headed (unpackHeader constant16 constant32) :=
  ⟨rfl, fun _ => local_ite (local_readIntegral 4) (local_ite (local_readIntegral 2) (local_value _))⟩

/-- The byte is read, or it stands for the format and the next one is read. -/
theorem local_next (format constant : UInt8) :
    Local (fetched fun rest => takeByte (if constant = format then rest else constant :: rest)) := by
  split
  · exact headed_takeByte.local_
  · exact local_value constant.toNat

theorem headed_unpackInt8 : Headed unpackInt8 :=
  ⟨rfl, fun constant => local_map (local_next int8 constant) (signed 1)⟩

theorem headed_unpackInt16 : Headed unpackInt16 :=
  ⟨rfl, fun constant =>
    local_ite (local_map (local_readIntegral 2) (signed 2))
      (local_ite (headed_unpackInt8.2 constant) (local_value _))⟩

theorem headed_unpackInt32 : Headed unpackInt32 :=
  ⟨rfl, fun constant =>
    local_ite (local_map (local_readIntegral 4) (signed 4))
      (local_ite (headed_unpackInt16.2 constant)
        (local_ite (headed_unpackInt8.2 constant) (local_value _)))⟩

theorem headed_unpackInt64 : Headed unpackInt64 :=
  ⟨rfl, fun constant =>
    local_ite (local_map (local_readIntegral 8) (signed 8))
      (local_ite (headed_unpackInt32.2 constant)
        (local_ite (headed_unpackInt16.2 constant)
          (local_ite (headed_unpackInt8.2 constant) (local_value _))))⟩

theorem headed_unpackUInt8 : Headed unpackUInt8 := ⟨rfl, local_next uint8⟩

theorem headed_unpackUInt16 : Headed unpackUInt16 :=
  ⟨rfl, fun constant => local_ite (local_readIntegral 2) (local_next uint8 constant)⟩

theorem headed_unpackUInt32 : Headed unpackUInt32 :=
  ⟨rfl, fun constant => local_ite (local_readIntegral 4) (headed_unpackUInt16.2 constant)⟩

theorem headed_unpackUInt64 : Headed unpackUInt64 :=
  ⟨rfl, fun constant => local_ite (local_readIntegral 8) (headed_unpackUInt32.2 constant)⟩

theorem headed_unpackNullptr : Headed unpackNullptr :=
  ⟨rfl, fun _ => local_ite (local_value ()) local_nothing⟩

theorem headed_unpackBool : Headed unpackBool :=
  ⟨rfl, fun _ => local_ite (local_value _) local_nothing⟩

theorem headed_unpackFloating (format : UInt8) (width : Nat) :
    Headed (unpackFloating format width) :=
  ⟨rfl, fun _ => local_ite (local_readIntegral width) local_nothing⟩

theorem headed_unpackString : Headed unpackString :=
  ⟨rfl, fun _ => local_bind
    (local_ite (local_readIntegral 4)
      (local_ite (local_readIntegral 2) (local_ite (local_readIntegral 1) (local_value _))))
    local_readBytes⟩

theorem headed_unpackBinary : Headed unpackBinary :=
  ⟨rfl, fun _ => local_bind
    (local_ite (local_readIntegral 4)
      (local_ite (local_readIntegral 2) (local_ite (local_readIntegral 1) local_nothing)))
    local_readBytes⟩

theorem headed_expectTimeStamp {α : Type} {next : Bytes → Option (α × Bytes)}
    (local_ : Local (fetched next)) :
    Headed fun data => (expectTimeStamp data).bind next := by
  refine ⟨rfl, fun byte => ?_⟩
  by_cases type : signed 1 byte.toNat = -1
  · simpa [expectTimeStamp, type] using local_
  · simpa [expectTimeStamp, type] using local_nothing

theorem headed_readTimePoint : Headed readTimePoint :=
  ⟨rfl, fun _ =>
    local_ite (headed_expectTimeStamp (local_map (local_readIntegral 4) fun seconds : Nat =>
        ((seconds : Int), (0 : Int)))).local_
      (local_ite (headed_expectTimeStamp (local_map (local_readIntegral 8) fun data64 : Nat =>
          (((data64 &&& 0x00000003FFFFFFFF : Nat) : Int), ((data64 >>> 34 : Nat) : Int)))).local_
        (local_ite
          (local_bind (local_readIntegral 1) fun _ =>
            (headed_expectTimeStamp (local_bind (local_readIntegral 4) fun nanoSeconds : Nat =>
              local_map (local_readIntegral 8) fun seconds : Nat =>
                (signed 8 seconds, (nanoSeconds : Int)))).local_)
          local_nothing))⟩

theorem headed_unpackVariantHeader : Headed unpackVariantHeader :=
  ⟨rfl, fun _ => local_bind
    (local_ite (local_value 1) (local_ite (local_value 2) (local_ite (local_value 4)
      (local_ite (local_value 8) (local_ite (local_value 16) (local_ite (local_readIntegral 1)
        (local_ite (local_readIntegral 2) (local_ite (local_readIntegral 4) local_nothing))))))))
    fun size => local_map (local_readIntegral 1) fun index : Nat => (size, signed 1 index)⟩

theorem local_counted {α β : Type} {item : Reader UInt8 Failure α} (local_ : Local item)
    (add : β → α → β) (filled : β) (count : Nat) : Local (counted item add filled count) := by
  rw [counted]
  split
  · exact local_.repeated add count filled
  · exact (local_.repeated add (2 ^ 31) filled).then_ fun _ => local_error Failure.undefined

theorem local_copied {α : Type} {size : Nat} (array : { items : List α // items.length = size })
    (items : List α) : Local (copied array items) := by
  intro input value rest reads
  rw [copied] at reads
  split at reads
  · rename_i fits
    cases reads
    exact ⟨[], rfl, fun more => by rw [copied, dif_pos fits]; rfl⟩
  · cases reads

theorem local_counts (parts : Int × Int) : Local (counts parts) := by
  intro input value rest reads
  cases outcome : toCount parts.1 parts.2 with
  | none =>
      rw [counts, outcome] at reads
      cases reads
  | some count =>
      rw [counts, outcome] at reads
      cases reads
      exact ⟨[], rfl, fun more => by rw [counts, outcome]; rfl⟩

theorem local_held {last : Nat} {α : Fin (last + 1) → Type}
    (alternative : ∀ index, Reader UInt8 Failure (α index)) (header : Nat × Int) :
    Local (held alternative header) := by
  rw [held]
  split
  · exact local_error Failure.exception
  · split
    · exact Local.within _ _ _
    · exact Local.within _ _ _

section Shapes

variable {α β : Type}

theorem local_assign {read : Bytes → Option (β × Bytes)} (headed : Headed read) (left : α)
    (convert : β → α) : Local fun data => (Unpacked.assign left convert (read data)).result := by
  simp only [Unpacked.result_assign]
  exact headed.local_.as convert

theorem local_unpackPair {unpackFirst : α → Bytes → Unpacked α} {unpackSecond : β → Bytes → Unpacked β}
    {pair : α × β} (local_ : Local fun data => (unpackFirst pair.1 data).result)
    (local' : Local fun data => (unpackSecond pair.2 data).result) :
    Local fun data => (unpackPair unpackFirst unpackSecond pair data).result := by
  simp only [result_unpackPair]
  exact local_.then_ fun _ => local'.as _

theorem local_unpackSized {unpackItem : Bytes → Unpacked α} {header : Bytes → Option (Nat × Bytes)}
    (add : β → α → β) (filled : β) (headed : Headed header)
    (local_ : Local fun data => (unpackItem data).result) :
    Local fun data => (unpackSized unpackItem add header filled data).result := by
  simp only [result_unpackSized]
  exact headed.local_.then_ (local_counted local_ add filled)

theorem local_unpackArray {size : Nat} {unpackItem : Bytes → Unpacked α}
    (array : { items : List α // items.length = size })
    (local_ : Local fun data => (unpackItem data).result) :
    Local fun data => (unpackArray unpackItem array data).result := by
  simp only [result_unpackArray]
  exact (local_unpackSized _ [] (headed_unpackHeader array16 array32) local_).then_
    (local_copied array)

end Shapes

theorem Schema.local_ : (type : Schema) → (left : type.Value) → Local (type.reader left)
  | .int8, left => local_assign headed_unpackInt8 left Int8.ofInt
  | .int16, left => local_assign headed_unpackInt16 left Int16.ofInt
  | .int32, left => local_assign headed_unpackInt32 left Int32.ofInt
  | .int64, left => local_assign headed_unpackInt64 left Int64.ofInt
  | .uint8, left => local_assign headed_unpackUInt8 left UInt8.ofNat
  | .uint16, left => local_assign headed_unpackUInt16 left UInt16.ofNat
  | .uint32, left => local_assign headed_unpackUInt32 left UInt32.ofNat
  | .uint64, left => local_assign headed_unpackUInt64 left UInt64.ofNat
  | .nullptr, left => local_assign headed_unpackNullptr left id
  | .bool, left => local_assign headed_unpackBool left id
  | .float, left => local_assign (headed_unpackFloating float32 4) left UInt32.ofNat
  | .double, left => local_assign (headed_unpackFloating float64 8) left UInt64.ofNat
  | .string, left => local_assign headed_unpackString left id
  | .binary, left => local_assign headed_unpackBinary left id
  | .timePoint, left => by
      have same : timePoint.reader left = (fetched readTimePoint).then_ counts :=
        funext (result_unpackTimePoint left)
      rw [same]
      exact headed_readTimePoint.local_.then_ local_counts
  | .nothing, left => local_ok left
  | .pair first second, left => local_unpackPair (first.local_ left.1) (second.local_ left.2)
  | .collection item, left =>
      local_unpackSized _ left (headed_unpackHeader array16 array32) (item.local_ item.fresh)
  | .array _ item, left => local_unpackArray left (item.local_ item.fresh)
  | .map key value, left =>
      local_unpackSized _ left (headed_unpackHeader map16 map32)
        (local_unpackPair (key.local_ key.fresh) (value.local_ value.fresh))
  | .variant _ _ alternative, left => by
      have same : (variant _ _ alternative).reader left = (fetched unpackVariantHeader).then_
          (held fun index => (alternative index).reader (alternative index).fresh) :=
        funext (result_unpackVariant _ left)
      rw [same]
      exact headed_unpackVariantHeader.local_.then_ (local_held _)

/-- The bytes that are taken settle what is unpacked, and no part at their front is
unpacked without an exception. -/
theorem Schema.unpack_settled (type : Schema) {left value : type.Value} {data rest : Bytes}
    (unpacked : type.unpack left data = .returned value rest) :
    ∃ taken, data = taken ++ rest ∧
      (∀ more, type.unpack left (taken ++ more) = .returned value more) ∧
      ∀ part, part <+: taken → part ≠ taken → ∀ value' rest',
        type.unpack left part ≠ .returned value' rest' := by
  have reads : type.reader left data = .ok (value, rest) := Unpacked.result_eq_ok.mpr unpacked
  obtain ⟨taken, rfl, settled⟩ := type.local_ left data value rest reads
  refine ⟨taken, rfl, fun more => Unpacked.result_eq_ok.mp (settled more), ?_⟩
  intro part front short value' rest' returned
  have whole := settled []
  rw [List.append_nil] at whole
  exact (type.local_ left).truncated whole front short value' rest'
    (Unpacked.result_eq_ok.mpr returned)

theorem Schema.unpack_settled_list :
    ∃ taken, [0x92, 5, 0xcc, 200, 7] = taken ++ [7] ∧
      (∀ more, (collection uint8).unpack [] (taken ++ more) =
        .returned [(5 : UInt8), (200 : UInt8)] more) ∧
      ∀ part, part <+: taken → part ≠ taken → ∀ value' rest',
        (collection uint8).unpack [] part ≠ .returned value' rest' :=
  @unpack_settled (collection uint8) [] [(5 : UInt8), (200 : UInt8)] [0x92, 5, 0xcc, 200, 7] [7]
    (by decide)

end CoServer.Msgpack
