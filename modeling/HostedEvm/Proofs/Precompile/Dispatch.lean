import HostedEvm.Proofs.Bytes
import HostedEvm.Proofs.Precompile.Registration

set_option autoImplicit false

/-!
From the functions of an interface to the handlers that run for them.

A contract is built if and only if its functions and its methods match one to one by signature.
Calls are dispatched by selector, though, and the selectors of different signatures may be the same.
Of the functions with one selector only the last keeps its place in the table: a call of it runs the
method of its signature, and the others cannot be called.
-/

namespace HostedEvm

open Abi

def Abi.Function.callWith (function : Function) (data : Bytes) : Bytes :=
  Bytes.bigEndian 4 function.selector.toNat ++ data

namespace MethodContract

def selectors (contract : MethodContract) : List Selector :=
  contract.interface.functions.map Function.selector

structure Matched (contract : MethodContract) : Prop where
  distinct : (contract.methods.map Method.signature).Nodup
  paired : (contract.interface.functions.map Function.signature).Perm
    (contract.methods.map Method.signature)

end MethodContract

inductive Precompile.Declares (contract : MethodContract) : Precompile → Prop
  | stateful : Declares contract (.stateful contract)
  | dynamic (readers : Map String AttributeReader) : Declares contract (.dynamic contract readers)

/-- A call of a function runs a method once, with the arguments that the call holds, and does
nothing else. -/
structure Container.Serves (codec : AbiCodec) (container : Container) (function : Function)
    (method : Method) : Prop where
  price : ∀ data, container.requiredGas (function.callWith data) = method.requiredGas
  served : ∀ scene data arguments meter machine,
    codec.decodeInput function data = .ok arguments →
      let ran := (method.handler scene.invocation arguments).run scene meter machine
      container.run scene (function.callWith data) meter machine =
        (BoundMethod.revert ⟨function, method⟩ (ran.1.bind (codec.encodeOutput function)),
          ran.2)
  misread : ∀ scene data fault meter machine,
    codec.decodeInput function data = .error fault →
      container.run scene (function.callWith data) meter machine = (.error fault, meter, machine)

namespace MethodContract

def Runs (contract : MethodContract) (codec : AbiCodec) (container : Container)
    (function : Function) : Prop :=
  ∃ method ∈ contract.methods, method.signature = function.signature ∧
    container.Serves codec function method

structure Dispatched (contract : MethodContract) (codec : AbiCodec) (container : Container) :
    Prop where
  counted : container.methodCount = contract.selectors.dedup.length
  last : ∀ before function behind, contract.interface.functions = before ++ function :: behind →
    function.selector ∉ behind.map Function.selector → contract.Runs codec container function

end MethodContract

namespace Handlers

theorem exists_bind {functions : List Function} {handlers : Handlers}
    (table : Map Selector BoundMethod) (distinct : (functions.map Function.signature).Nodup)
    (present : ∀ function ∈ functions, function.signature ∈ handlers) :
    ∃ ended, handlers.bind functions table = .ok ended := by
  induction functions generalizing handlers table with
  | nil => exact ⟨(handlers, table), rfl⟩
  | cons function others inductionHypothesis =>
      rw [List.map_cons, List.nodup_cons] at distinct
      obtain ⟨method, found⟩ := Map.mem_iff.mp (present function List.mem_cons_self)
      unfold bind
      rw [found]
      refine inductionHypothesis _ distinct.2 ?_
      intro other member
      rw [Map.mem_erase]
      refine ⟨?_, present other (List.mem_cons_of_mem function member)⟩
      intro same
      exact distinct.1 (List.mem_map.mpr ⟨other, member, same.symm⟩)

end Handlers

namespace MethodContract

variable {contract : MethodContract} {bounds : List BoundMethod}

theorem Pairs.matched (pairs : contract.Pairs bounds) : contract.Matched := by
  refine ⟨pairs.distinct, ?_⟩
  have named : bounds.map (fun bound => bound.function.signature) =
      bounds.map fun bound => bound.method.signature :=
    List.map_congr_left fun bound member => (pairs.agree bound member).symm
  have listed := pairs.methods.map Method.signature
  rw [List.map_map] at listed
  rw [← pairs.functions, List.map_map]
  exact named ▸ listed

theorem Matched.exists_methodTable (matched : contract.Matched) :
    ∃ table, contract.methodTable = .ok table := by
  obtain ⟨handlers, handled⟩ : ∃ handlers, Handlers.ofMethods contract.methods = .ok handlers :=
    ⟨_, Handlers.ofMethods_eq_ok_iff.mpr ⟨matched.distinct, rfl⟩⟩
  have holds := Handlers.hold_ofMethods handled
  have present : ∀ function ∈ contract.interface.functions, function.signature ∈ handlers := by
    intro function member
    have named : function.signature ∈ contract.methods.map Method.signature :=
      matched.paired.mem_iff.mp (List.mem_map.mpr ⟨function, member, rfl⟩)
    rwa [← (holds.listed.map Method.signature).mem_iff, Map.map_listValues holds.own,
      Map.mem_listKeys] at named
  obtain ⟨⟨rest, filed⟩, bound⟩ :=
    Handlers.exists_bind ∅ (matched.paired.nodup_iff.mpr matched.distinct) present
  obtain ⟨bounds, functions, -, taken, -⟩ := Handlers.pairs_of_bind holds.own bound
  -- All handlers are taken, since there are as many of them as there are functions.
  have allTaken : Map.listKeys rest = [] := by
    have counted := taken.length_eq
    rw [holds.listed.length_eq, List.length_append, List.length_map, Map.listValues,
      List.length_map] at counted
    have asMany := matched.paired.length_eq
    rw [List.length_map, List.length_map, ← functions, List.length_map] at asMany
    apply List.eq_nil_of_length_eq_zero
    rw [Map.listKeys, List.length_map]
    omega
  refine ⟨filed, ?_⟩
  unfold methodTable
  rw [handled]
  change (handlers.bind contract.interface.functions ∅ >>= _) = _
  rw [bound]
  dsimp only [Bind.bind, Except.bind]
  rw [allTaken]
  rfl

end MethodContract

section Calls

variable (function : Function) (data : Bytes)

theorem Abi.Function.not_short_callWith : ¬ (function.callWith data).length < 4 := by
  rw [callWith, List.length_append, Bytes.length_bigEndian]
  omega

theorem Abi.Function.drop_callWith : (function.callWith data).drop 4 = data :=
  List.drop_left' (Bytes.length_bigEndian 4 _)

theorem Abi.Function.selector_callWith :
    BitVec.ofNat 32 (Bytes.toNat ((function.callWith data).take 4)) = function.selector := by
  have front : (function.callWith data).take 4 = Bytes.bigEndian 4 function.selector.toNat :=
    List.take_left' (Bytes.length_bigEndian 4 _)
  have fits : function.selector.toNat < 256 ^ 4 := function.selector.isLt
  rw [front, Bytes.toNat_bigEndian, Nat.mod_eq_of_lt fits, BitVec.ofNat_toNat, BitVec.setWidth_eq]

variable {function} {table : MethodTable} {method : Method}

theorem MethodTable.select_callWith
    (found : table.methods[function.selector]? = some ⟨function, method⟩) :
    table.select (function.callWith data) = .ok ⟨function, method⟩ := by
  have filled : ¬ table.methods.isEmpty = true := by
    rw [Std.ExtTreeMap.isEmpty_iff]
    intro empty
    rw [empty] at found
    simp at found
  unfold select
  simp only [if_neg filled, if_neg (function.not_short_callWith data),
    function.selector_callWith data, found]

/-- The method that is filed under the selector of a function serves it. -/
theorem Container.serves_of_found
    (found : table.methods[function.selector]? = some ⟨function, method⟩) :
    (dispatching table).Serves table.codec function method := by
  constructor
  · intro data
    simp only [requiredGas, MethodTable.requiredGas, MethodTable.lookup?,
      if_neg (function.not_short_callWith data), function.selector_callWith data, found]
  · intro scene data arguments meter machine decoded
    simp only [run, MethodTable.select_callWith data found, function.drop_callWith data, decoded]
    rfl
  · intro scene data fault meter machine misread
    simp only [run, MethodTable.select_callWith data found, function.drop_callWith data, misread]

end Calls

namespace MethodContract

variable {contract : MethodContract} {codec : AbiCodec} {container : Container}
  {bounds : List BoundMethod}

theorem Pairs.selectors (pairs : contract.Pairs bounds) :
    bounds.map BoundMethod.selector = contract.selectors := by
  rw [MethodContract.selectors, ← pairs.functions, List.map_map]
  rfl

theorem Pairs.dispatched (pairs : contract.Pairs bounds) (table : MethodTable)
    (filed : table.methods = Map.ofValues BoundMethod.selector bounds) :
    contract.Dispatched table.codec (.dispatching table) := by
  constructor
  · rw [← pairs.selectors, Container.methodCount, filed]
    exact Map.size_ofValues BoundMethod.selector bounds
  · intro before function behind placed last
    have functions := pairs.functions.trans placed
    rw [List.map_eq_append_iff] at functions
    obtain ⟨boundBefore, others, rfl, -, functions⟩ := functions
    rw [List.map_eq_cons_iff] at functions
    obtain ⟨bound, boundBehind, rfl, rfl, rfl⟩ := functions
    rw [List.map_map] at last
    have member : bound ∈ boundBefore ++ bound :: boundBehind :=
      List.mem_append_right boundBefore List.mem_cons_self
    refine ⟨bound.method, ?_, pairs.agree bound member, Container.serves_of_found ?_⟩
    · exact pairs.methods.mem_iff.mp (List.mem_map.mpr ⟨bound, member, rfl⟩)
    · rw [filed]
      exact Map.get_ofValues_last BoundMethod.selector last

theorem Dispatched.counts_all_iff (dispatched : contract.Dispatched codec container) :
    container.methodCount = contract.interface.functions.length ↔ contract.selectors.Nodup := by
  have asMany : contract.interface.functions.length = contract.selectors.length :=
    List.length_map .. |>.symm
  rw [dispatched.counted, asMany, Map.length_dedup_eq_iff]

/-- With different selectors no function hides another. -/
theorem Dispatched.runs_all (dispatched : contract.Dispatched codec container)
    (distinct : contract.selectors.Nodup) :
    ∀ function ∈ contract.interface.functions, contract.Runs codec container function := by
  intro function member
  obtain ⟨before, behind, placed⟩ := List.mem_iff_append.mp member
  refine dispatched.last before function behind placed ?_
  rw [selectors, placed, List.map_append, List.map_cons, List.nodup_append] at distinct
  exact (List.nodup_cons.mp distinct.2.1).1

end MethodContract

namespace Precompile

variable {codec : AbiCodec} {precompile : Precompile} {contract : MethodContract}

theorem Declares.build_eq (declares : Declares contract precompile) :
    ∃ book, precompile.build codec = do
      let table ← contract.methodTable
      return .dispatching ⟨contract.address, table, codec, book⟩ := by
  cases declares with
  | stateful => exact ⟨none, rfl⟩
  | dynamic readers => exact ⟨some (.ofInterface contract.address contract.interface readers), rfl⟩

theorem Declares.builds_iff (declares : Declares contract precompile) :
    (∃ container, precompile.build codec = .ok container) ↔ contract.Matched := by
  obtain ⟨book, made⟩ := declares.build_eq
  rw [made]
  constructor
  · rintro ⟨container, built⟩
    obtain ⟨table, filed, -⟩ := exists_ok_of_bind built
    obtain ⟨bounds, pairs, -⟩ := MethodContract.pairs_of_methodTable filed
    exact pairs.matched
  · intro matched
    obtain ⟨table, filed⟩ := matched.exists_methodTable
    refine ⟨.dispatching ⟨contract.address, table, codec, book⟩, ?_⟩
    rw [filed]
    rfl

theorem Declares.dispatched (declares : Declares contract precompile) {container : Container}
    (built : precompile.build codec = .ok container) : contract.Dispatched codec container := by
  obtain ⟨book, made⟩ := declares.build_eq
  obtain ⟨table, filed, placed⟩ := exists_ok_of_bind (made.symm.trans built)
  obtain ⟨bounds, pairs, rfl⟩ := MethodContract.pairs_of_methodTable filed
  cases placed
  exact pairs.dispatched ⟨contract.address, _, codec, book⟩ rfl

/-- A contract is built if and only if its functions and methods match one to one by signature.
Then as many methods can be called as there are selectors, and the last function with a selector is
served by the method of its signature, with arguments and results as the codec has them. That is
every function if their selectors differ. -/
theorem dispatch_exact (codec : AbiCodec) (precompile : Precompile) (contract : MethodContract)
    (declares : Declares contract precompile) :
    ((∃ container, precompile.build codec = .ok container) ↔ contract.Matched) ∧
      ∀ container, precompile.build codec = .ok container →
        contract.Dispatched codec container ∧
          (container.methodCount = contract.interface.functions.length ↔
            contract.selectors.Nodup) ∧
          (contract.selectors.Nodup →
            ∀ function ∈ contract.interface.functions, contract.Runs codec container function) := by
  refine ⟨declares.builds_iff, ?_⟩
  intro container built
  have dispatched := declares.dispatched built
  exact ⟨dispatched, dispatched.counts_all_iff, dispatched.runs_all⟩

def balanceOf : Function where
  name := "balanceOf"
  inputs := [⟨"owner", .root "address", false⟩]

def balanceMethod : Method where
  signature := "balanceOf(address)"
  handler _ _ := .finish (.ok [])

def transfer : Function where
  name := "transfer"
  inputs := [⟨"to", .root "address", false⟩, ⟨"amount", .root "uint256", false⟩]

def transferMethod : Method where
  signature := "transfer(address,uint256)"
  handler _ _ := .consume 1 fun _ => .finish (.ok [])

def token : MethodContract where
  address := 9
  interface := { functions := [balanceOf, transfer] }
  methods := [transferMethod, balanceMethod]

theorem transfer_selector : transfer.selector = 0xa9059cbb := by decide +kernel

theorem token_dispatched :
    ∃ container, (stateful token).build .standard = .ok container ∧ container.methodCount = 2 ∧
      container.Serves .standard balanceOf balanceMethod ∧
      container.Serves .standard transfer transferMethod := by
  obtain ⟨builds, building⟩ := dispatch_exact .standard (.stateful token) token .stateful
  obtain ⟨container, built⟩ := builds.mpr (by constructor <;> decide)
  obtain ⟨-, counts, runs⟩ := building container built
  have other : balanceOf.selector = 0x70a08231 := by decide +kernel
  have distinct : token.selectors.Nodup := by
    change [balanceOf.selector, transfer.selector].Nodup
    rw [other, transfer_selector]
    decide
  obtain ⟨first, listed, named, serves⟩ := runs distinct balanceOf List.mem_cons_self
  obtain ⟨second, listed', named', serves'⟩ :=
    runs distinct transfer (List.mem_cons_of_mem _ List.mem_cons_self)
  simp only [token, List.mem_cons, List.not_mem_nil, or_false] at listed listed'
  refine ⟨container, built, counts.mpr distinct, ?_, ?_⟩
  · rcases listed with rfl | rfl
    · exact absurd named (by decide)
    · exact serves
  · rcases listed' with rfl | rfl
    · exact serves'
    · exact absurd named' (by decide)

/-- A function whose selector is that of a transfer. -/
def gossip : Function where
  name := "many_msg_babbage"
  inputs := [⟨"x", .root "bytes1", false⟩]

def gossipMethod : Method where
  signature := "many_msg_babbage(bytes1)"
  handler _ _ := .finish (.ok [])

def clashing : MethodContract where
  address := 9
  interface := { functions := [gossip, transfer] }
  methods := [gossipMethod, transferMethod]

/-- Where two selectors are the same, a call of the first function runs the method of the second. -/
theorem clashing_misdirected :
    ∃ container, (stateful clashing).build .standard = .ok container ∧
      container.methodCount ≠ clashing.interface.functions.length ∧
      ¬ clashing.Runs .standard container gossip := by
  have declares : Declares clashing (stateful clashing) := .stateful
  obtain ⟨container, built⟩ := declares.builds_iff.mpr (by constructor <;> decide)
  have dispatched := declares.dispatched built
  have same : gossip.selector = transfer.selector := by
    rw [transfer_selector]
    decide +kernel
  refine ⟨container, built, ?_, ?_⟩
  · rw [ne_eq, dispatched.counts_all_iff]
    change ¬ [gossip.selector, transfer.selector].Nodup
    rw [same]
    simp
  · rintro ⟨first, listed, named, serves⟩
    obtain ⟨second, listed', named', serves'⟩ :=
      dispatched.last [gossip] transfer [] rfl List.not_mem_nil
    simp only [clashing, List.mem_cons, List.not_mem_nil, or_false] at listed listed'
    have gossiping : first = gossipMethod := listed.resolve_right <| by
      rintro rfl
      exact absurd named (by decide)
    have transferring : second = transferMethod := listed'.resolve_left <| by
      rintro rfl
      exact absurd named' (by decide)
    subst gossiping transferring
    let scene : Scene :=
      ⟨⟨9, 4, 0, false⟩, none, fun _ machine => (.error .writeProtection, machine)⟩
    have gossiped := serves.served scene (List.replicate 64 0) [.fixedBytes 0 1] .unlimited {} rfl
    have transferred :=
      serves'.served scene (List.replicate 64 0) [.address 0, .uint 0 256] .unlimited {} rfl
    have sameInput : gossip.callWith (List.replicate 64 0) =
        transfer.callWith (List.replicate 64 0) := by
      rw [Function.callWith, Function.callWith, same]
    rw [sameInput, transferred] at gossiped
    have spent : (Meter.unlimited.consume 1).2.txConsumed = Meter.unlimited.txConsumed :=
      congrArg (fun ran => ran.2.1.txConsumed) gossiped
    exact absurd spent (by decide)

end Precompile

end HostedEvm
