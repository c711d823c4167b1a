import HostedEvm.Proofs.Bytes
import HostedEvm.Transaction

set_option autoImplicit false

/-!
What the seal of a transaction tells apart.

The digested bytes begin with fields of fixed width, which can be read back. Behind them stand the
input and the access list without their lengths, so the end of the input and the ends of the items
are lost: a transaction with an access list is sealed like one that carries the bytes of an item at
the end of its input. Nothing else is lost.
-/

namespace HostedEvm.Transaction

open Bytes

def payload (tx : Transaction) : Bytes := tx.input ++ tx.accessList.flatMap itemBytes

/-- The number of slots of each item of the access list. -/
def listShape (tx : Transaction) : List Nat :=
  tx.accessList.map fun item => item.storageKeys.length

/-- Transactions whose fields of fixed width are the same. -/
structure AgreeInFront (first second : Transaction) : Prop where
  nonce : first.nonce = second.nonce
  sender : first.sender = second.sender
  recipient : first.recipient = second.recipient
  value : first.value = second.value
  gasLimit : first.gasLimit = second.gasLimit
  gasPrice : first.gasPrice = second.gasPrice

/-- Transactions with the same fields, their seals apart. -/
structure Agree (first second : Transaction) : Prop extends AgreeInFront first second where
  input : first.input = second.input
  accessList : first.accessList = second.accessList

theorem Agree.payload {first second : Transaction} (agree : first.Agree second) :
    first.payload = second.payload := by
  rw [Transaction.payload, agree.input, agree.accessList, Transaction.payload]

theorem Agree.listShape {first second : Transaction} (agree : first.Agree second) :
    first.listShape = second.listShape := by
  rw [Transaction.listShape, agree.accessList, Transaction.listShape]

theorem preimage_eq (tx : Transaction) :
    tx.preimage =
      ofGas tx.nonce ++ (ofAddress tx.sender ++ (recipientBytes tx.recipient ++
        (ofWord tx.value ++ (ofGas tx.gasLimit ++ (ofWord tx.gasPrice ++ tx.payload))))) := by
  simp only [preimage, payload, List.append_assoc]

theorem hash_sealed (tx : Transaction) : tx.sealed.hash = Keccak.digest tx.preimage := rfl

theorem preimage_sealed (tx : Transaction) : tx.sealed.preimage = tx.preimage := rfl

/-- A seal from before an access list was attached leaves no trace. -/
theorem sealed_withAccessList (tx : Transaction) (items : List AccessListItem) :
    tx.sealed.withAccessList items = { tx with accessList := items : Transaction }.sealed := by
  simp only [withAccessList, sealed, preimage]

/-- The mark in front of a recipient tells whether an address follows. -/
theorem recipientBytes_append_inj {first second : Option Address} {behind other : Bytes}
    (same : recipientBytes first ++ behind = recipientBytes second ++ other) :
    first = second ∧ behind = other := by
  cases first with
  | none =>
      cases second with
      | none => exact ⟨rfl, List.append_cancel_left same⟩
      | some address => cases same
  | some address =>
      cases second with
      | none => cases same
      | some found =>
          have tails := (List.cons.inj same).2
          obtain ⟨addresses, rest⟩ := List.append_inj tails (by simp)
          exact ⟨congrArg some (ofAddress_injective addresses), rest⟩

/-- The digested bytes fix the fields of fixed width and the bytes behind them, and no more. -/
theorem preimage_eq_iff (first second : Transaction) :
    first.preimage = second.preimage ↔
      first.AgreeInFront second ∧ first.payload = second.payload := by
  rw [preimage_eq, preimage_eq]
  constructor
  · intro same
    obtain ⟨nonce, behindNonce⟩ := List.append_inj same (by simp)
    obtain ⟨sender, behindSender⟩ := List.append_inj behindNonce (by simp)
    obtain ⟨recipient, behindRecipient⟩ := recipientBytes_append_inj behindSender
    obtain ⟨value, behindValue⟩ := List.append_inj behindRecipient (by simp)
    obtain ⟨gasLimit, behindGasLimit⟩ := List.append_inj behindValue (by simp)
    obtain ⟨gasPrice, payload⟩ := List.append_inj behindGasLimit (by simp)
    refine ⟨⟨ofGas_injective nonce, ofAddress_injective sender, recipient, ?_, ?_, ?_⟩, payload⟩
    · exact ofWord_injective value
    · exact ofGas_injective gasLimit
    · exact ofWord_injective gasPrice
  · rintro ⟨agree, payload⟩
    rw [agree.nonce, agree.sender, agree.recipient, agree.value, agree.gasLimit, agree.gasPrice,
      payload]

theorem length_slotBytes (slots : List Word) :
    (slots.flatMap ofWord).length = 32 * slots.length := by
  induction slots with
  | nil => rfl
  | cons slot rest inductionHypothesis =>
      rw [List.flatMap_cons, List.length_append, length_ofWord, inductionHypothesis,
        List.length_cons]
      omega

theorem slots_eq {first second : List Word} (sizes : first.length = second.length)
    (same : first.flatMap ofWord = second.flatMap ofWord) : first = second := by
  have aligned (slot other : Word) (_ : 0 = 0) : (ofWord slot).length = (ofWord other).length := by
    rw [length_ofWord, length_ofWord]
  have apart (slot other : Word) (_ : 0 = 0) (bytes : ofWord slot = ofWord other) : slot = other :=
    ofWord_injective bytes
  have shapes : (first.map fun _ => 0) = second.map fun _ => 0 := by
    rw [List.map_const', List.map_const', sizes]
  exact eq_of_flatMap_eq aligned apart shapes same

theorem length_itemBytes (item : AccessListItem) :
    (itemBytes item).length = 20 + 32 * item.storageKeys.length := by
  rw [itemBytes, List.length_append, length_ofAddress, length_slotBytes]

/-- An item is told by its bytes once the number of its slots is known. -/
theorem item_eq {first second : AccessListItem}
    (sizes : first.storageKeys.length = second.storageKeys.length)
    (same : itemBytes first = itemBytes second) : first = second := by
  obtain ⟨addresses, slots⟩ := List.append_inj same (by simp)
  cases first
  cases second
  rw [AccessListItem.mk.injEq]
  exact ⟨ofAddress_injective addresses, slots_eq sizes slots⟩

/-- The bytes of input and access list are told apart by the shape of the access list. -/
theorem payload_inj {first second : Transaction} (shapes : first.listShape = second.listShape)
    (same : first.payload = second.payload) :
    first.input = second.input ∧ first.accessList = second.accessList := by
  have aligned (item other : AccessListItem)
      (sizes : item.storageKeys.length = other.storageKeys.length) :
      (itemBytes item).length = (itemBytes other).length := by
    rw [length_itemBytes, length_itemBytes, sizes]
  obtain ⟨inputs, lists⟩ := List.append_inj' same (length_flatMap_congr aligned shapes)
  exact ⟨inputs, eq_of_flatMap_eq aligned (fun _ _ => item_eq) shapes lists⟩

/-- The digested bytes fix a transaction up to the ends of its input and of the items of its access
list: two transactions with the same bytes agree in all fields of fixed width and in the bytes
behind them, and they are the same exactly when the items of their access lists have the same
numbers of slots. -/
theorem agree_iff_of_preimage (first second : Transaction) :
    (first.preimage = second.preimage ↔
      first.AgreeInFront second ∧ first.payload = second.payload) ∧
    (first.Agree second ↔
      first.preimage = second.preimage ∧ first.listShape = second.listShape) := by
  refine ⟨preimage_eq_iff first second, ?_⟩
  constructor
  · intro agree
    have same := (preimage_eq_iff first second).mpr ⟨agree.toAgreeInFront, agree.payload⟩
    exact ⟨same, agree.listShape⟩
  · rintro ⟨same, shapes⟩
    obtain ⟨front, payload⟩ := (preimage_eq_iff first second).mp same
    obtain ⟨inputs, lists⟩ := payload_inj shapes payload
    exact ⟨front, inputs, lists⟩

/-- The first item of an access list can be moved to the end of the input unseen. -/
theorem preimage_absorb (tx : Transaction) (item : AccessListItem) (rest : List AccessListItem) :
    { tx with input := tx.input ++ itemBytes item, accessList := rest : Transaction }.preimage =
      { tx with accessList := item :: rest : Transaction }.preimage := by
  simp only [preimage, List.flatMap_cons, List.append_assoc]

def plainCall : Transaction :=
  { sender := 1, recipient := some 2, gasLimit := 100000, gasPrice := 1 }

def sampleItem : AccessListItem := { address := 9, storageKeys := [] }

def warming : Transaction := plainCall.sealed.withAccessList [sampleItem]

def naming : Transaction := { plainCall with input := ofAddress 9 : Transaction }.sealed

/-- Different transactions can carry the same seal. -/
theorem sealed_alike :
    naming.preimage = warming.preimage ∧ naming.hash = warming.hash ∧
      naming.input ≠ warming.input ∧ naming.accessList ≠ warming.accessList := by
  have same := preimage_absorb plainCall sampleItem []
  rw [naming, warming, sealed_withAccessList]
  refine ⟨?_, ?_, by decide, by decide⟩
  · rw [preimage_sealed, preimage_sealed]
    exact same
  · rw [hash_sealed, hash_sealed]
    exact congrArg Keccak.digest same

end HostedEvm.Transaction
