import StogasVerifier.Lib.Fallible
import StogasVerifier.Lib.JsonTree

/-! The strict JSON reader (`strict_json.rs`): what its visitor makes of the calls of the
deserializer. -/

namespace StogasVerifier.StrictJson
open Lib

inductive Calls where
  | unit
  | bool (value : Bool)
  | i64 (value : Int64)
  | u64 (value : UInt64)
  | f64 (bits : UInt64)
  | str (text : String)
  | seq (items : List Calls)
  | map (entries : List (String × Calls))

def isFinite (bits : UInt64) : Bool := (bits >>> 52) &&& 0x7ff ≠ 0x7ff

/-- `Number::from(i64)` -/
def fromI64 (value : Int64) : Number := if value.toInt < 0 then .negInt value.toInt else .posInt value.toUInt64

mutual
def visit : Calls → Except String Json
  | .unit => .ok .null
  | .bool value => .ok (.bool value)
  | .i64 value => .ok (.number (fromI64 value))
  | .u64 value => .ok (.number (.posInt value))
  | .f64 bits => if isFinite bits then .ok (.number (.float bits)) else .error "non-finite JSON number"
  | .str text => .ok (.string text)
  | .seq items => do return .array (← visitSeq items)
  | .map entries => do return .object (← visitMap [] entries)

def visitSeq : List Calls → Except String (List Json)
  | [] => .ok []
  | item :: items => do return (← visit item) :: (← visitSeq items)

def visitMap (keys : List String) : List (String × Calls) → Except String (List (String × Json))
  | [] => .ok []
  | (key, value) :: entries => do
    rejectIf (key ∈ keys) s!"duplicate JSON key: {key}"
    return (key, ← visit value) :: (← visitMap (key :: keys) entries)
end

def Accepts (value : Json) : Prop := ∃ calls, visit calls = .ok value

mutual
theorem visit_regular {calls : Calls} {value : Json} (visited : visit calls = .ok value) : value.Regular := by
  cases calls with
  | unit =>
    cases visited
    exact .leaf (fun _ occurs => by cases occurs; rfl) nofun nofun
  | bool value =>
    cases visited
    exact .leaf (fun _ occurs => by cases occurs; rfl) nofun nofun
  | i64 value =>
    cases visited
    refine .leaf (fun _ occurs => by cases occurs; rfl) nofun fun number same => ?_
    have low := value.le_toInt
    unfold fromI64 at same
    split_ifs at same with negative
    · cases same
      exact ⟨low, negative⟩
    · cases same
  | u64 value =>
    cases visited
    exact .leaf (fun _ occurs => by cases occurs; rfl) nofun nofun
  | f64 bits =>
    rw [visit] at visited
    split_ifs at visited
    cases visited
    exact .leaf (fun _ occurs => by cases occurs; rfl) nofun nofun
  | str text =>
    cases visited
    exact .leaf (fun _ occurs => by cases occurs; rfl) nofun nofun
  | seq items =>
    rw [visit] at visited
    obtain ⟨read, sequence, rest⟩ := bind_ok.mp visited
    cases pure_ok.mp rest
    exact .array (visitSeq_regular sequence)
  | map entries =>
    rw [visit] at visited
    obtain ⟨read, sequence, rest⟩ := bind_ok.mp visited
    cases pure_ok.mp rest
    obtain ⟨each, distinct, -⟩ := visitMap_regular sequence
    exact .object each distinct

theorem visitSeq_regular {items : List Calls} {values : List Json} (visited : visitSeq items = .ok values) : ∀ value ∈ values, value.Regular := by
  cases items with
  | nil =>
    cases visited
    nofun
  | cons item items =>
    rw [visitSeq] at visited
    obtain ⟨first, head, rest⟩ := bind_ok.mp visited
    obtain ⟨more, tail, last⟩ := bind_ok.mp rest
    cases pure_ok.mp last
    exact List.forall_mem_cons.mpr ⟨visit_regular head, visitSeq_regular tail⟩

theorem visitMap_regular {keys : List String} {entries : List (String × Calls)} {members : List (String × Json)}
    (visited : visitMap keys entries = .ok members) :
    (∀ member ∈ members, member.2.Regular) ∧ (members.map Prod.fst).Nodup ∧ ∀ key ∈ keys, key ∉ members.map Prod.fst := by
  cases entries with
  | nil =>
    cases visited
    exact ⟨nofun, List.nodup_nil, nofun⟩
  | cons entry entries =>
    rw [visitMap] at visited
    obtain ⟨_, fresh, visited⟩ := bind_ok.mp visited
    obtain ⟨first, head, rest⟩ := bind_ok.mp visited
    obtain ⟨more, tail, last⟩ := bind_ok.mp rest
    cases pure_ok.mp last
    obtain ⟨each, distinct, apart⟩ := visitMap_regular tail
    refine ⟨List.forall_mem_cons.mpr ⟨visit_regular head, each⟩, List.nodup_cons.mpr ⟨apart _ (.head _), distinct⟩, fun key known member => ?_⟩
    rcases List.mem_cons.mp member with same | later
    · exact rejectIf_ok.mp fresh (same ▸ known)
    · exact apart key (.tail _ known) later
end

end StogasVerifier.StrictJson
