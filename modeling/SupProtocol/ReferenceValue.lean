import Mathlib.Data.List.Basic
import SupProtocol.AnyValue

namespace SupProtocol.Reference

-- A small concrete value tree: the interface of AnyValue has a model, and the
-- definitions of this development run on it. Its binary form stands in for the
-- one of sup-dto, whose layout nothing here depends on.
inductive Value where
  | empty
  | boolean (b : Bool)
  | signedInteger32 (n : Int32)
  | unsignedInteger32 (n : UInt32)
  | unsignedInteger64 (n : UInt64)
  | string (s : String)
  | emptyStruct (name : String)
  | withMember (base : Value) (name : String) (value : Value)
  deriving DecidableEq, Repr

namespace Value

def isStruct : Value → Bool
  | .emptyStruct _ | .withMember .. => true
  | _ => false

def scalar : (t : ScalarType) → t.Rep → Value
  | .boolean,b => .boolean b
  | .signedInteger32,n => .signedInteger32 n
  | .unsignedInteger32,n => .unsignedInteger32 n
  | .unsignedInteger64,n => .unsignedInteger64 n
  | .string,s => .string s

def asScalar : (t : ScalarType) → Value → Option t.Rep
  | .boolean,.boolean b => some b
  | .signedInteger32,.signedInteger32 n => some n
  | .unsignedInteger32,.unsignedInteger32 n => some n
  | .unsignedInteger64,.unsignedInteger64 n => some n
  | .string,.string s => some s
  | _,_ => none

def member : Value → String → Option Value
  | .withMember base name value,n => if n = name then some value else member base n
  | _,_ => none

def addMember (base : Value) (name : String) (value : Value) : Except Exception Value :=
  if base.isStruct && !name.isEmpty && (base.member name).isNone && value != .empty then
    .ok (.withMember base name value)
  else .error (.foreign "AddMember")

def sameType : Value → Value → Bool
  | .boolean _,.boolean _ | .signedInteger32 _,.signedInteger32 _
  | .unsignedInteger32 _,.unsignedInteger32 _ | .unsignedInteger64 _,.unsignedInteger64 _
  | .string _,.string _ => true
  | .emptyStruct n,.emptyStruct m => n == m
  | .withMember b n v,.withMember c m w => b.sameType c && n == m && v.sameType w
  | _,_ => false

def tryAssign (target value : Value) : Bool × Value :=
  if target = .empty then (true,value)
  else if target.sameType value then (true,value)
  else (false,target)

end Value

-- Numbers as tallies, texts as counted lists of them, trees in prefix order.
def writeNat (n : Nat) : List UInt8 := List.replicate n 1 ++ [0]

def readNat : List UInt8 → Option (Nat × List UInt8)
  | [] => none
  | b :: rest => if b = 0 then some (0,rest) else (readNat rest).map fun r => (r.1+1,r.2)

theorem readNat_writeNat (n : Nat) (rest : List UInt8) :
    readNat (writeNat n ++ rest) = some (n,rest) := by
  induction n with
  | zero => simp [writeNat,readNat]
  | succ n ih =>
    have unfolded : writeNat (n+1) ++ rest = 1 :: (writeNat n ++ rest) := by
      simp [writeNat,List.replicate_succ]
    rw [unfolded,readNat,if_neg (by decide),ih]
    rfl

def writeChars : List Char → List UInt8
  | [] => []
  | c :: cs => writeNat c.toNat ++ writeChars cs

def readChars : Nat → List UInt8 → Option (List Char × List UInt8)
  | 0,bytes => some ([],bytes)
  | n+1,bytes => do
    let (code,rest) ← readNat bytes
    let (cs,tail) ← readChars n rest
    return (Char.ofNat code :: cs,tail)

theorem readChars_writeChars (cs : List Char) (rest : List UInt8) :
    readChars cs.length (writeChars cs ++ rest) = some (cs,rest) := by
  induction cs with
  | nil => rfl
  | cons c cs ih =>
    simp only [List.length_cons,readChars,writeChars,List.append_assoc,readNat_writeNat]
    simp [ih]

def writeText (s : String) : List UInt8 := writeNat s.toList.length ++ writeChars s.toList

def readText (bytes : List UInt8) : Option (String × List UInt8) := do
  let (count,rest) ← readNat bytes
  let (cs,tail) ← readChars count rest
  return (String.ofList cs,tail)

theorem readText_writeText (s : String) (rest : List UInt8) :
    readText (writeText s ++ rest) = some (s,rest) := by
  simp only [readText,writeText,List.append_assoc,readNat_writeNat]
  simp [readChars_writeChars]

def write : Value → List UInt8
  | .empty => writeNat 0
  | .boolean b => writeNat 1 ++ writeNat b.toNat
  | .signedInteger32 n => writeNat 2 ++ writeNat n.toUInt32.toNat
  | .unsignedInteger32 n => writeNat 3 ++ writeNat n.toNat
  | .unsignedInteger64 n => writeNat 4 ++ writeNat n.toNat
  | .string s => writeNat 5 ++ writeText s
  | .emptyStruct name => writeNat 6 ++ writeText name
  | .withMember base name value => writeNat 7 ++ (write base ++ (writeText name ++ write value))

def depth : Value → Nat
  | .withMember base _ value => 1 + max (depth base) (depth value)
  | _ => 1

-- Fuel bounds the nesting; `read` starts with more than any tree can need.
def readTree : Nat → List UInt8 → Option (Value × List UInt8)
  | 0,_ => none
  | fuel+1,bytes => do
    let (tag,rest) ← readNat bytes
    match tag with
    | 0 => return (.empty,rest)
    | 1 => do let (n,tail) ← readNat rest; return (.boolean (n != 0),tail)
    | 2 => do let (n,tail) ← readNat rest; return (.signedInteger32 (UInt32.ofNat n).toInt32,tail)
    | 3 => do let (n,tail) ← readNat rest; return (.unsignedInteger32 (UInt32.ofNat n),tail)
    | 4 => do let (n,tail) ← readNat rest; return (.unsignedInteger64 (UInt64.ofNat n),tail)
    | 5 => do let (s,tail) ← readText rest; return (.string s,tail)
    | 6 => do let (s,tail) ← readText rest; return (.emptyStruct s,tail)
    | 7 => do
      let (base,rest) ← readTree fuel rest
      let (name,rest) ← readText rest
      let (value,tail) ← readTree fuel rest
      return (.withMember base name value,tail)
    | _ => none

theorem readTree_write (tree : Value) (fuel : Nat) (rest : List UInt8) (fits : depth tree ≤ fuel) :
    readTree fuel (write tree ++ rest) = some (tree,rest) := by
  induction tree generalizing fuel rest with
  | withMember base name value hb hv =>
    obtain _ | fuel := fuel
    · simp [depth] at fits
    · have fits : max (depth base) (depth value) ≤ fuel := by simp only [depth] at fits; omega
      have first := fun tail => hb fuel tail (by omega)
      have second := fun tail => hv fuel tail (by omega)
      simp only [write,List.append_assoc,readTree,readNat_writeNat,Option.bind_eq_bind,
        Option.bind_some,first,readText_writeText,second]
      rfl
  | _ =>
    obtain _ | fuel := fuel
    · simp [depth] at fits
    · simp only [write,List.append_assoc,readTree,readNat_writeNat,readText_writeText,
        Option.bind_eq_bind,Option.bind_some]
      first | rfl | (cases ‹Bool› <;> rfl) | simp

theorem write_pos (tree : Value) : 0 < (write tree).length := by
  cases tree <;> simp [write,writeNat]

theorem depth_le_write (tree : Value) : depth tree ≤ (write tree).length := by
  induction tree with
  | withMember base name value hb hv =>
    simp only [depth,write,List.length_append,writeNat,List.length_replicate,List.length_singleton]
    omega
  | _ => exact write_pos _

def read (bytes : List UInt8) : Except Exception Value :=
  match readTree bytes.length bytes with
  | some (tree,[]) => .ok tree
  | _ => .error (.foreign "AnyValueFromBinary")

theorem read_write (tree : Value) : read (write tree) = .ok tree := by
  have parsed := readTree_write tree (write tree).length [] (depth_le_write tree)
  rw [List.append_nil] at parsed
  rw [read,parsed]

-- One character a byte in place of base64.
def textOfBytes (bytes : List UInt8) : String :=
  String.ofList (bytes.map fun b => Char.ofNat b.toNat)

def bytesOfText (text : String) : Except Exception (List UInt8) :=
  if text.toList.all (fun c => c.toNat < 256) then
    .ok (text.toList.map fun c => UInt8.ofNat c.toNat)
  else .error (.foreign "Base64Decode")

theorem char_of_byte (b : UInt8) : (Char.ofNat b.toNat).toNat = b.toNat := by
  have small : b.toNat < 256 := b.toNat_lt
  have valid : b.toNat.isValidChar := Or.inl (by omega)
  rw [Char.ofNat,dif_pos valid]
  rfl

theorem bytesOfText_textOfBytes (bytes : List UInt8) :
    bytesOfText (textOfBytes bytes) = .ok bytes := by
  have bounded : (textOfBytes bytes).toList.all (fun c => c.toNat < 256) = true := by
    simp only [textOfBytes,String.toList_ofList,List.all_map,List.all_eq_true]
    intro b _
    simpa [char_of_byte] using b.toNat_lt
  rw [bytesOfText,if_pos bounded]
  simp [textOfBytes,List.map_map,Function.comp_def,char_of_byte]

instance : AnyValue Value where
  empty := .empty
  isEmptyValue v := v == .empty
  scalar := Value.scalar
  asScalar := Value.asScalar
  emptyStruct := .emptyStruct
  isStructValue := Value.isStruct
  isMemberName n := !n.isEmpty
  member := Value.member
  addMember := Value.addMember
  tryAssignIfEmptyOrConvert := Value.tryAssign

instance : Codec Value where
  anyValueToBinary := write
  anyValueFromBinary := read
  base64Encode := textOfBytes
  base64Decode := bytesOfText

instance : LawfulAnyValue Value where
  empty_isEmpty := rfl
  scalar_nonempty t x := by cases t <;> rfl
  struct_nonempty v struct := by cases v <;> first | rfl | cases struct
  asScalar_scalar t x := by cases t <;> rfl
  packet_names n known := by
    simp only [packetFieldNames,List.mem_cons,List.not_mem_nil,or_false] at known
    rcases known with rfl | rfl | rfl | rfl | rfl | rfl | rfl | rfl | rfl | rfl <;> decide
  emptyStruct_struct name := rfl
  emptyStruct_member name n _ := rfl
  addMember_adds v x n struct name fresh nonempty := by
    change v.isStruct = true at struct
    change v.member n = none at fresh
    change (x == .empty) = false at nonempty
    change (!n.isEmpty) = true at name
    refine ⟨.withMember v n x,?_,rfl,?_,?_⟩
    · change Value.addMember v n x = _
      have present : (x != .empty) = true := by simp [bne,nonempty]
      simp [Value.addMember,struct,fresh,name,present]
    · exact if_pos rfl
    · intro m _ different
      exact if_neg different

instance : LawfulCodec Value where
  binary_roundtrip := read_write
  base64_roundtrip := bytesOfText_textOfBytes

instance : LawfulAssign Value where
  assign_empty target value isEmpty := by
    have isEmpty : target = .empty := by simpa [isEmptyValue] using isEmpty
    exact if_pos isEmpty
  assign_failed target value failed := by
    change (Value.tryAssign target value).1 = false at failed
    change (Value.tryAssign target value).2 = target
    unfold Value.tryAssign at failed ⊢
    split
    · rename_i isEmpty; simp [isEmpty] at failed
    · split
      · rename_i isEmpty same; simp [isEmpty,same] at failed
      · rfl

def namedRequest (id : UInt64) : Value :=
  .withMember (.emptyStruct "") asyncIdFieldName (.unsignedInteger64 id)

end SupProtocol.Reference
