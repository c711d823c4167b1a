import HostedEvm.Precompile.Registry
import HostedEvm.Proofs.Filing
import HostedEvm.Proofs.Outcome

set_option autoImplicit false

/-!
From declared methods to registered ones.

Building a registry files the declared methods and makes no new ones. What holds of every declared
method therefore holds of every method that a call can reach. Handlers and precompiles are filed
under free keys only, so that a registry takes different signatures and different addresses.
-/

namespace HostedEvm

def Precompile.Every (property : Method → Prop) : Precompile → Prop
  | .stateless _ => True
  | .stateful contract | .dynamic contract _ => ∀ method ∈ contract.methods, property method

def Container.Every (property : Method → Prop) : Container → Prop
  | .pure _ => True
  | .dispatching table => table.methods.Every fun bound => property bound.method

def Registry.Every (property : Method → Prop) (registry : Registry) : Prop :=
  registry.containers.Every (Container.Every property)

theorem Container.Every.imp {property weaker : Method → Prop} {container : Container}
    (every : container.Every property) (imp : ∀ method, property method → weaker method) :
    container.Every weaker := by
  cases container with
  | pure contract => trivial
  | dispatching table => exact Map.Every.imp every fun bound => imp bound.method

theorem Registry.Every.imp {property weaker : Method → Prop} {registry : Registry}
    (every : registry.Every property) (imp : ∀ method, property method → weaker method) :
    registry.Every weaker := by
  change registry.containers.Every (Container.Every weaker)
  exact Map.Every.imp every fun container holds => Container.Every.imp holds imp

/-- The method that a call is for is one of the table. -/
theorem MethodTable.select_mem {table : MethodTable} {input : Bytes} {bound : BoundMethod}
    (selected : table.select input = .ok bound) :
    ∃ selector : Selector, table.methods[selector]? = some bound := by
  unfold select at selected
  simp only at selected
  split at selected
  · cases selected
  · split at selected
    · cases selected
    · split at selected
      · rename_i found
        cases selected
        exact ⟨_, found⟩
      · cases selected

variable {property : Method → Prop} {codec : AbiCodec}

namespace Handlers

/-- The handlers are the methods of a list, each under its own signature. -/
structure Hold (handlers : Handlers) (methods : List Method) : Prop where
  own : ∀ (signature : String) (method : Method), handlers[signature]? = some method →
    method.signature = signature
  listed : (Map.listValues handlers).Perm methods

variable {handlers : Handlers} {methods : List Method}

theorem add_eq_ok_iff (handlers : Handlers) (method : Method) (next : Handlers) :
    handlers.add method = .ok next ↔ method.signature ∉ handlers ∧
      ∃ own, Except.ok method = (.ok own : Except Fault Method) ∧
        next = handlers.insert method.signature own := by
  unfold add
  rw [← Std.ExtTreeMap.contains_iff_mem]
  split
  · rename_i taken
    simp [taken]
  · rename_i free
    simp [free, eq_comm]

/-- The handlers can be made if and only if no two methods have one signature. -/
theorem ofMethods_eq_ok_iff :
    ofMethods methods = .ok handlers ↔
      (methods.map Method.signature).Nodup ∧ handlers = Map.ofValues Method.signature methods := by
  have own : ∀ method value, (.ok method : Except Fault Method) = .ok value →
      value.signature = method.signature := by
    rintro method _ ⟨⟩
    rfl
  have made {values : List Method} :
      methods.mapM (.ok : Method → Except Fault Method) = .ok values ↔ methods = values := by
    simp only [mapM_eq_ok_iff, Except.ok.injEq, List.forall₂_eq_eq_eq]
  refine (Map.foldlM_eq_ok_iff Method.signature add_eq_ok_iff own methods ∅ handlers).trans ?_
  constructor
  · rintro ⟨distinct, -, values, walked, rfl⟩
    obtain rfl := made.mp walked
    exact ⟨distinct, rfl⟩
  · rintro ⟨distinct, rfl⟩
    exact ⟨distinct, fun _ _ => Std.ExtTreeMap.not_mem_empty, methods, made.mpr rfl, rfl⟩

theorem hold_ofMethods (handled : ofMethods methods = .ok handlers) : handlers.Hold methods := by
  obtain ⟨distinct, rfl⟩ := ofMethods_eq_ok_iff.mp handled
  exact ⟨Map.own_ofValues Method.signature, Map.listValues_ofValues_perm Method.signature distinct⟩

end Handlers

namespace BoundMethod

def selector (bound : BoundMethod) : Selector := bound.function.selector

def fileAll (bounds : List BoundMethod) (table : Map Selector BoundMethod) :
    Map Selector BoundMethod :=
  bounds.foldl (fun table bound => table.insert bound.selector bound) table

end BoundMethod

/-- Every function that is bound takes the method of its signature out of the handlers. -/
theorem Handlers.pairs_of_bind {functions : List Abi.Function} {handlers rest : Handlers}
    {table filed : Map Selector BoundMethod}
    (own : ∀ (signature : String) (method : Method), handlers[signature]? = some method →
      method.signature = signature)
    (bound : handlers.bind functions table = .ok (rest, filed)) :
    ∃ bounds : List BoundMethod,
      bounds.map BoundMethod.function = functions ∧
        (∀ bound ∈ bounds, bound.method.signature = bound.function.signature) ∧
        (Map.listValues handlers).Perm (bounds.map BoundMethod.method ++ Map.listValues rest) ∧
        filed = BoundMethod.fileAll bounds table := by
  induction functions generalizing handlers table with
  | nil =>
      cases bound
      exact ⟨[], rfl, List.forall_mem_nil _, .rfl, rfl⟩
  | cons function others inductionHypothesis =>
      unfold bind at bound
      split at bound
      · rename_i method found
        have ownRest : ∀ (signature : String) (other : Method),
            (handlers.erase function.signature)[signature]? = some other →
              other.signature = signature := by
          intro signature other present
          rw [Map.get_erase] at present
          split at present
          · cases present
          · exact own signature other present
        obtain ⟨bounds, ofFunctions, agree, taken, filedAs⟩ := inductionHypothesis ownRest bound
        refine ⟨⟨function, method⟩ :: bounds, ?_, ?_, ?_, filedAs⟩
        · rw [List.map_cons, ofFunctions]
        · exact List.forall_mem_cons.mpr ⟨own function.signature method found, agree⟩
        · exact (Map.listValues_erase_perm found).trans (taken.cons method)
      · cases bound

namespace MethodContract

structure Pairs (contract : MethodContract) (bounds : List BoundMethod) : Prop where
  distinct : (contract.methods.map Method.signature).Nodup
  functions : bounds.map BoundMethod.function = contract.interface.functions
  methods : (bounds.map BoundMethod.method).Perm contract.methods
  agree : ∀ bound ∈ bounds, bound.method.signature = bound.function.signature

variable {contract : MethodContract} {table : Map Selector BoundMethod}

theorem pairs_of_methodTable (built : contract.methodTable = .ok table) :
    ∃ bounds, contract.Pairs bounds ∧ table = Map.ofValues BoundMethod.selector bounds := by
  unfold methodTable at built
  obtain ⟨handlers, handled, matching⟩ := exists_ok_of_bind built
  obtain ⟨⟨rest, filed⟩, bound, complete⟩ := exists_ok_of_bind matching
  have holds := Handlers.hold_ofMethods handled
  obtain ⟨bounds, functions, agree, taken, filedAs⟩ := Handlers.pairs_of_bind holds.own bound
  dsimp only at complete
  split at complete
  · rename_i empty
    cases complete
    have allTaken : Map.listValues rest = [] := by
      rw [Map.listKeys, List.map_eq_nil_iff] at empty
      rw [Map.listValues, empty, List.map_nil]
    rw [allTaken, List.append_nil] at taken
    have distinct := (Handlers.ofMethods_eq_ok_iff.mp handled).1
    exact ⟨bounds, ⟨distinct, functions, taken.symm.trans holds.listed, agree⟩, filedAs⟩
  · cases complete

theorem every_methodTable (declared : ∀ method ∈ contract.methods, property method)
    (built : contract.methodTable = .ok table) :
    table.Every fun bound => property bound.method := by
  obtain ⟨bounds, pairs, rfl⟩ := pairs_of_methodTable built
  intro selector bound found
  have member := Map.mem_of_get_ofValues BoundMethod.selector found
  exact declared bound.method (pairs.methods.mem_iff.mp (List.mem_map.mpr ⟨bound, member, rfl⟩))

end MethodContract

theorem Precompile.every_build {precompile : Precompile} {container : Container}
    (declared : precompile.Every property) (built : precompile.build codec = .ok container) :
    container.Every property := by
  cases precompile with
  | stateless contract =>
      cases built
      trivial
  | stateful contract | dynamic contract readers =>
      obtain ⟨table, filed, made⟩ := exists_ok_of_bind built
      cases made
      exact MethodContract.every_methodTable declared filed

theorem Handlers.category_bind {functions : List Abi.Function} {handlers : Handlers}
    {start : Map Selector BoundMethod} {fault : Fault}
    (refused : handlers.bind functions start = .error fault) : fault.category = .registration := by
  induction functions generalizing handlers start with
  | nil => cases refused
  | cons function others inductionHypothesis =>
      unfold bind at refused
      split at refused
      · exact inductionHypothesis refused
      · cases refused
        rfl

theorem MethodContract.category_methodTable {contract : MethodContract} {fault : Fault}
    (refused : contract.methodTable = .error fault) : fault.category = .registration := by
  rcases error_of_bind refused with unhandled | ⟨handlers, _, matching⟩
  · refine foldlM_fails (fun fault => fault.category = .registration) ?_ unhandled
    intro handlers method fault added
    unfold Handlers.add at added
    split at added
    · cases added
      rfl
    · cases added
  · rcases error_of_bind matching with unbound | ⟨⟨rest, table⟩, _, complete⟩
    · exact Handlers.category_bind unbound
    · dsimp only at complete
      split at complete
      · cases complete
      · cases complete
        rfl

theorem Precompile.category_build {precompile : Precompile} {fault : Fault}
    (refused : precompile.build codec = .error fault) : fault.category = .registration := by
  cases precompile with
  | stateless contract => cases refused
  | stateful contract | dynamic contract readers =>
      rcases error_of_bind refused with unfiled | ⟨table, _, made⟩
      · exact MethodContract.category_methodTable unfiled
      · cases made

/-- Precompiles that cannot be registered are declared inconsistently. -/
theorem Registry.category_withCodec {precompiles : List Precompile} {prices : StoragePrices}
    {fault : Fault} (refused : withCodec codec precompiles prices = .error fault) :
    fault.category = .registration := by
  rcases error_of_bind refused with unregistered | ⟨containers, _, made⟩
  · refine foldlM_fails (fun fault => fault.category = .registration) ?_ unregistered
    intro containers precompile fault added
    unfold add at added
    split at added
    · cases added
      rfl
    · rcases error_of_bind added with unbuilt | ⟨container, _, inserted⟩
      · exact Precompile.category_build unbuilt
      · cases inserted
  · cases made

theorem Precompile.address_build {precompile : Precompile} {container : Container}
    (built : precompile.build codec = .ok container) : container.address = precompile.address := by
  cases precompile with
  | stateless contract =>
      cases built
      rfl
  | stateful contract | dynamic contract readers =>
      obtain ⟨table, _, made⟩ := exists_ok_of_bind built
      cases made
      rfl

namespace Registry

variable {precompiles : List Precompile} {prices : StoragePrices} {registry : Registry}

theorem mem_active {address : Address} :
    address ∈ registry.active ↔ registry.contains address = true := by
  rw [active, Map.mem_listKeys, contains, Std.ExtTreeMap.contains_iff_mem]

theorem add_eq_ok_iff (codec : AbiCodec) (containers : Map Address Container)
    (precompile : Precompile) (next : Map Address Container) :
    add codec containers precompile = .ok next ↔ precompile.address ∉ containers ∧
      ∃ container, precompile.build codec = .ok container ∧
        next = containers.insert precompile.address container := by
  unfold add
  constructor
  · intro added
    split at added
    · cases added
    · rename_i free
      obtain ⟨container, built, made⟩ := exists_ok_of_bind added
      cases made
      exact ⟨free ∘ Std.ExtTreeMap.contains_iff_mem.mpr, container, built, rfl⟩
  · rintro ⟨free, container, built, rfl⟩
    rw [if_neg (free ∘ Std.ExtTreeMap.contains_iff_mem.mp), built]
    rfl

/-- A registry is what is built of the precompiles, and they have to differ in their addresses. -/
theorem withCodec_eq_ok_iff :
    withCodec codec precompiles prices = .ok registry ↔
      (precompiles.map Precompile.address).Nodup ∧
        ∃ containers, precompiles.mapM (Precompile.build codec) = .ok containers ∧
          registry = ⟨Map.ofValues Container.address containers, prices⟩ := by
  have walk := Map.foldlM_eq_ok_iff Container.address (add_eq_ok_iff codec)
    (fun _ _ => Precompile.address_build) precompiles ∅
  constructor
  · intro built
    obtain ⟨filed, walked, made⟩ := exists_ok_of_bind built
    cases made
    obtain ⟨distinct, -, containers, made, rfl⟩ := (walk _).mp walked
    exact ⟨distinct, containers, made, rfl⟩
  · rintro ⟨distinct, containers, made, rfl⟩
    have free : ∀ precompile ∈ precompiles, precompile.address ∉ (∅ : Map Address Container) :=
      fun _ _ => Std.ExtTreeMap.not_mem_empty
    rw [withCodec, (walk _).mpr ⟨distinct, free, containers, made, rfl⟩]
    rfl

/-- What holds of everything that is built from declared precompiles holds of what is
registered. -/
theorem containers_withCodec {holds : Container → Prop}
    (building : ∀ precompile ∈ precompiles, ∀ container, precompile.build codec = .ok container →
      holds container)
    (built : withCodec codec precompiles prices = .ok registry) :
    registry.containers.Every holds := by
  obtain ⟨-, containers, made, rfl⟩ := withCodec_eq_ok_iff.mp built
  intro address container found
  have listed := Map.mem_of_get_ofValues Container.address found
  obtain ⟨precompile, member, builtOne⟩ := exists_of_mem_mapM made listed
  exact building precompile member container builtOne

end Registry

theorem Registry.every_withCodec {precompiles : List Precompile} {prices : StoragePrices}
    {registry : Registry} (declared : ∀ precompile ∈ precompiles, precompile.Every property)
    (built : withCodec codec precompiles prices = .ok registry) : registry.Every property :=
  containers_withCodec
    (fun precompile member _ made => Precompile.every_build (declared precompile member) made) built

end HostedEvm
