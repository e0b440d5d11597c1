import SdkCore.Lib.Batches
import SdkCore.Lib.Maps

/-!
# External storage of payloads

Large payloads of a message are handed to drivers and replaced by references (`storeIn`), and references by their
payloads (`retrieveIn`), with one call for each driver of a field, finished in any order. `Env` are the answers of
drivers and selector, sizes and texts (`store_retrieve_roundtrip`).
-/

namespace SdkCore.ExternalStorageRunner

open Batches Maps Work

/-! ## Payloads and references -/

/-- A value, or a reference to one. -/
structure Payload where
  metadata : Map String String
  data : String
  /-- The sizes of the payloads that this one stands for. -/
  externalPayloads : List Nat

def Payload.default : Payload := ⟨∅, "", []⟩

abbrev ClaimData := Map String String

structure ExternalStorageReference where
  driverName : String
  claimData : ClaimData

inductive ExternalStorageError
  | notConfigured
  | invalidReference (text : String)
  | unregisteredDriver (name : String)
  | unregisteredSelection (name : String)
  | driverContract (driver : String) (requested returned : Nat)
  | driver (text : String)
  deriving DecidableEq

/-- Drivers are the same if their pointers are. -/
structure StorageDriver where
  name : String
  pointer : Nat
  deriving DecidableEq

/-- Drivers, and how one is selected. -/
structure ExternalStorage where
  drivers : List StorageDriver
  /-- The driver that is selected for the payload at an index of a field. -/
  selectDriver : (field index : Nat) → Payload → Option StorageDriver
  payloadSizeThreshold : Nat

def ExternalStorage.driver (storage : ExternalStorage) (name : String) : Option StorageDriver :=
  storage.drivers.find? (·.name = name)

/-- Sizes, texts of references, and the answers of drivers. -/
structure Env where
  encodedLen : Payload → Nat
  toVec : ExternalStorageReference → Except String String
  fromSlice : String → Except String ExternalStorageReference
  store : (field pointer : Nat) → List Payload → Except String (List ClaimData)
  retrieve : (field pointer : Nat) → List ClaimData → Except String (List Payload)

def referenceEncoding : String := "json/protobuf"

def referenceMessageType : String := "temporal.api.sdk.v1.ExternalStorageReference"

/-- The payload says that it is a reference. -/
def isPlainReference (payload : Payload) : Bool :=
  payload.metadata.lookup "encoding" = some referenceEncoding &&
    payload.metadata.lookup "messageType" = some referenceMessageType

def parseReference (env : Env) (payload : Payload) : Except ExternalStorageError ExternalStorageReference :=
  if isPlainReference payload then (env.fromSlice payload.data).mapError .invalidReference
  else .error (.invalidReference "payload is not an external storage reference")

def createReferencePayload (env : Env) (driverName : String) (claimData : ClaimData) (originalSizeBytes : Nat) :
    Except ExternalStorageError Payload := do
  let data ← (env.toVec ⟨driverName, claimData⟩).mapError .invalidReference
  return ⟨(AList.insert "messageType" referenceMessageType ∅).insert "encoding" referenceEncoding, data,
    [originalSizeBytes]⟩

structure PayloadField where
  path : String
  payloads : List Payload

/-- Search attributes have to be readable by the server. -/
def isSearchAttributesPath (path : String) : Bool :=
  path.toList.tails.any ("SearchAttributes.indexed_fields".toList.isPrefixOf ·)

def shouldTransform (path : String) : Bool := !isSearchAttributesPath path

def passField (f : Nat → List Payload → Except ExternalStorageError (List Payload)) (x : PayloadField × Nat) :
    Except ExternalStorageError (Nat × PayloadField) := do
  let payloads ← f x.2 x.1.payloads
  return (x.2, ⟨x.1.path, payloads⟩)

/-- A pass over the fields that may be transformed, in any order. -/
def pass (f : Nat → List Payload → Except ExternalStorageError (List Payload)) (order : Order (PayloadField × Nat))
    (message : List PayloadField) : Except ExternalStorageError (List PayloadField) := do
  let done ← (order.run (message.zipIdx.filter (shouldTransform ·.1.path))).mapM (passField f)
  return scatter done message

structure Offload where
  index : Nat
  size : Nat
  driver : StorageDriver
  payload : Payload

/-- Large payloads with a driver are stored. -/
def selectPayload (env : Env) (storage : ExternalStorage) (field : Nat) (x : Payload × Nat) :
    Except ExternalStorageError (Option Offload) :=
  let size := env.encodedLen x.1
  if size < storage.payloadSizeThreshold then .ok none
  else
    match storage.selectDriver field x.2 x.1 with
    | none => .ok none
    | some driver =>
      if (storage.driver driver.name).any (·.pointer = driver.pointer) then .ok (some ⟨x.2, size, driver, x.1⟩)
      else .error (.unregisteredSelection driver.name)

def selectPayloads (env : Env) (storage : ExternalStorage) (field : Nat) (payloads : List Payload) :
    Except ExternalStorageError (List Offload) :=
  collect (selectPayload env storage field) payloads

/-- One call for the driver that was selected first; all are the same. -/
def storeGroup (env : Env) (field : Nat) (group : List Offload) : Except ExternalStorageError (List ClaimData) :=
  match group with
  | [] => .ok []
  | x :: _ => (env.store field x.driver.pointer (group.map (·.payload))).mapError .driver

def storeWork (env : Env) (field : Nat) : Work Offload String ClaimData Payload ExternalStorageError where
  call _ := storeGroup env field
  contract := .driverContract
  finish name x claim := createReferencePayload env name claim x.size

/-- References take the places of payloads. -/
def storePayloads (env : Env) (storage : ExternalStorage) (order : Order (String × List Offload)) (field : Nat)
    (payloads : List Payload) : Except ExternalStorageError (List Payload) := do
  let items ← selectPayloads env storage field payloads
  let replaced ← (storeWork env field).runAll order (·.driver.name) items
  let emptied := scatter (items.map fun x => (x.index, Payload.default)) payloads
  return scatter (replaced.map fun x => (x.1.index, x.2)) emptied

def storeIn (env : Env) (storage : Option ExternalStorage) (fields : Order (PayloadField × Nat))
    (groups : Nat → Order (String × List Offload)) (message : List PayloadField) :
    Except ExternalStorageError (List PayloadField) :=
  match storage with
  | none => .ok message
  | some storage => pass (fun i => storePayloads env storage (groups i) i) fields message

structure Fetch where
  index : Nat
  driverName : String
  claimData : ClaimData

def findReference (env : Env) (x : Payload × Nat) : Except ExternalStorageError (Option Fetch) :=
  if isPlainReference x.1 then do
    let reference ← parseReference env x.1
    return some ⟨x.2, reference.driverName, reference.claimData⟩
  else .ok none

def findReferences (env : Env) (payloads : List Payload) : Except ExternalStorageError (List Fetch) :=
  collect (findReference env) payloads

def resolveDriver (storage : ExternalStorage) (name : String) : Except ExternalStorageError StorageDriver :=
  match storage.driver name with
  | none => .error (.unregisteredDriver name)
  | some driver => .ok driver

def retrieveWork (env : Env) (storage : ExternalStorage) (field : Nat) :
    Work Fetch String Payload Payload ExternalStorageError where
  call name group := do
    let driver ← resolveDriver storage name
    (env.retrieve field driver.pointer (group.map (·.claimData))).mapError .driver
  contract := .driverContract
  finish _ _ payload := .ok payload

/-- All drivers are resolved before the first request. -/
def retrievePayloads (env : Env) (storage : ExternalStorage) (order : Order (String × List Fetch)) (field : Nat)
    (payloads : List Payload) : Except ExternalStorageError (List Payload) := do
  let items ← findReferences env payloads
  let _ ← (order.run (groupBy (·.driverName) items)).mapM fun g => resolveDriver storage g.1
  let retrieved ← (retrieveWork env storage field).runAll order (·.driverName) items
  return scatter (retrieved.map fun x => (x.1.index, x.2)) payloads

/-- Without storage there must be no references. -/
def rejectReferencesIn (message : List PayloadField) : Except ExternalStorageError (List PayloadField) :=
  if message.any fun field => shouldTransform field.path && field.payloads.any isPlainReference then
    .error .notConfigured
  else .ok message

def retrieveIn (env : Env) (storage : Option ExternalStorage) (fields : Order (PayloadField × Nat))
    (groups : Nat → Order (String × List Fetch)) (message : List PayloadField) :
    Except ExternalStorageError (List PayloadField) :=
  match storage with
  | none => rejectReferencesIn message
  | some storage => pass (fun i => retrievePayloads env storage (groups i) i) fields message

/-! ## Passes -/

section Passes

variable {f : Nat → List Payload → Except ExternalStorageError (List Payload)} {order : Order (PayloadField × Nat)}
  {message result : List PayloadField}

theorem passField_eq_ok {field : PayloadField} {i : Nat} {y : Nat × PayloadField} :
    passField f (field, i) = .ok y ↔ ∃ payloads, f i field.payloads = .ok payloads ∧
      y = (i, ⟨field.path, payloads⟩) := by
  rw [passField, bind_eq_ok]
  constructor
  · rintro ⟨payloads, hp, h⟩
    cases h
    exact ⟨payloads, hp, rfl⟩
  · rintro ⟨payloads, hp, rfl⟩
    exact ⟨payloads, hp, rfl⟩

theorem mem_transformable {field : PayloadField} {i : Nat} :
    (field, i) ∈ order.run (message.zipIdx.filter (shouldTransform ·.1.path)) ↔
      message[i]? = some field ∧ shouldTransform field.path = true := by
  rw [Order.mem_run, List.mem_filter, List.mem_zipIdx_iff_getElem?]

/-- A pass transforms these fields, and leaves the others alone. -/
theorem pass_ok (h : pass f order message = .ok result) : result.length = message.length ∧
    ∀ i field, message[i]? = some field →
      (shouldTransform field.path = true → ∃ payloads, f i field.payloads = .ok payloads ∧
        result[i]? = some ⟨field.path, payloads⟩) ∧
      (shouldTransform field.path = false → result[i]? = some field) := by
  obtain ⟨done, hd, h⟩ := bind_eq_ok.mp h
  cases h
  obtain ⟨h1, h2⟩ := mapM_ok hd
  -- what is written to an index comes from the field at this index
  have hw : ∀ w ∈ done, ∃ field payloads, message[w.1]? = some field ∧ shouldTransform field.path = true ∧
      f w.1 field.payloads = .ok payloads ∧ w.2 = ⟨field.path, payloads⟩ := by
    intro w hw
    obtain ⟨⟨field, i⟩, hx, hf⟩ := h2 w hw
    obtain ⟨payloads, hp, rfl⟩ := passField_eq_ok.mp hf
    obtain ⟨hm, ht⟩ := mem_transformable.mp hx
    exact ⟨field, payloads, hm, ht, hp, rfl⟩
  refine ⟨length_scatter _ _, fun i field hi => ⟨fun ht => ?_, fun ht => ?_⟩⟩
  · obtain ⟨w, hwm, hf⟩ := h1 (field, i) (mem_transformable.mpr ⟨hi, ht⟩)
    obtain ⟨payloads, hp, rfl⟩ := passField_eq_ok.mp hf
    refine ⟨payloads, hp, getElem?_scatter (List.getElem?_eq_some_iff.mp hi).1 hwm ?_⟩
    rintro w hw' rfl
    obtain ⟨field', payloads', hm, -, hp', hw2⟩ := hw w hw'
    rw [hi] at hm
    cases hm
    rw [hp] at hp'
    cases hp'
    exact hw2
  · refine (getElem?_scatter_of_ne ?_).trans hi
    rintro w hw' rfl
    obtain ⟨field', -, hm, ht', -⟩ := hw w hw'
    rw [hi] at hm
    cases hm
    rw [ht] at ht'
    cases ht'

/-- A pass succeeds if every field does. -/
theorem pass_complete (order : Order (PayloadField × Nat)) (h : ∀ i field, message[i]? = some field →
    shouldTransform field.path = true → ∃ payloads, f i field.payloads = .ok payloads) :
    ∃ result, pass f order message = .ok result := by
  have hall : ∀ x ∈ order.run (message.zipIdx.filter (shouldTransform ·.1.path)), ∃ y, passField f x = .ok y := by
    rintro ⟨field, i⟩ hx
    obtain ⟨hi, ht⟩ := mem_transformable.mp hx
    obtain ⟨payloads, hp⟩ := h i field hi ht
    exact ⟨_, passField_eq_ok.mpr ⟨payloads, hp, rfl⟩⟩
  obtain ⟨done, hd⟩ := mapM_complete hall
  exact ⟨scatter done message, by rw [pass, hd]; rfl⟩

end Passes

variable {env : Env} {storage : ExternalStorage} {field : Nat}

/-! ## What is stored -/

variable {i size : Nat} {x : Offload} {payloads : List Payload} {items : List Offload} {name : String}
  {claim : ClaimData} {r : Payload}

theorem selectPayload_some {p : Payload} (h : selectPayload env storage field (p, i) = .ok (some x)) :
    x.index = i ∧ x.payload = p ∧ ∃ d, storage.driver x.driver.name = some d ∧ d.pointer = x.driver.pointer := by
  simp only [selectPayload] at h
  split at h
  · cases h
  · split at h
    · cases h
    · next driver hd =>
      split at h
      · next hp =>
        cases h
        cases hreg : storage.driver driver.name with
        | none =>
          rw [hreg] at hp
          cases hp
        | some d =>
          rw [hreg] at hp
          exact ⟨rfl, rfl, d, rfl, of_decide_eq_true hp⟩
      · cases h

theorem selectPayloads_mem (h : selectPayloads env storage field payloads = .ok items) (hx : x ∈ items) :
    payloads[x.index]? = some x.payload ∧
      ∃ d, storage.driver x.driver.name = some d ∧ d.pointer = x.driver.pointer := by
  obtain ⟨i, p, hi, hs⟩ := (collect_ok h).2 x hx
  obtain ⟨rfl, rfl, hd⟩ := selectPayload_some hs
  exact ⟨hi, hd⟩

theorem storeWork_call (h : selectPayloads env storage field payloads = .ok items) (hx : x ∈ items) :
    (storeWork env field).call x.driver.name (groupOf (·.driver.name) items x) =
      (env.store field x.driver.pointer ((groupOf (·.driver.name) items x).map (·.payload))).mapError .driver := by
  have hmem : x ∈ groupOf (·.driver.name) items x := by simp [groupOf, hx]
  obtain ⟨-, d, hd, hp⟩ := selectPayloads_mem h hx
  cases hg : groupOf (·.driver.name) items x with
  | nil =>
    rw [hg] at hmem
    cases hmem
  | cons y ys =>
    have hy : y ∈ groupOf (·.driver.name) items x := by
      rw [hg]
      exact List.mem_cons_self
    obtain ⟨hym, hyn⟩ := List.mem_filter.mp hy
    have hyn : y.driver.name = x.driver.name := of_decide_eq_true hyn
    obtain ⟨-, d', hd', hp'⟩ := selectPayloads_mem h hym
    rw [hyn, hd] at hd'
    cases hd'
    simp only [storeWork, storeGroup, ← hp', hp]

/-- What is stored is given by the calls. -/
theorem storePayloads_ok {order : Order (String × List Offload)} {stored : List Payload}
    (h : storePayloads env storage order field payloads = .ok stored) :
    ∃ items, selectPayloads env storage field payloads = .ok items ∧ stored.length = payloads.length ∧
      (∀ i p, payloads[i]? = some p → selectPayload env storage field (p, i) = .ok none → stored[i]? = some p) ∧
      ∀ x ∈ items, ∃ r, (storeWork env field).Gives (·.driver.name) items x r ∧ stored[x.index]? = some r := by
  obtain ⟨items, hitems, h⟩ := bind_eq_ok.mp h
  obtain ⟨replaced, hr, h⟩ := bind_eq_ok.mp h
  cases h
  have hidx : ∀ p i x, selectPayload env storage field (p, i) = .ok (some x) → x.index = i :=
    fun p i x hx => (selectPayload_some hx).1
  obtain ⟨h1, h2⟩ := getElem?_runAll hr (nodup_collect hidx hitems)
    (scatter (items.map fun x => (x.index, Payload.default)) payloads)
  refine ⟨items, hitems, by simp, ?_, ?_⟩
  · intro i p hi hnone
    have hne : ∀ x ∈ items, x.index ≠ i := by
      rintro x hx rfl
      obtain ⟨j, q, hj, hs⟩ := (collect_ok hitems).2 x hx
      obtain rfl := hidx q j x hs
      rw [hi] at hj
      cases hj
      rw [hnone] at hs
      cases hs
    rw [h2 i hne]
    refine (getElem?_scatter_of_ne ?_).trans hi
    intro w hw
    obtain ⟨x, hx, rfl⟩ := List.mem_map.mp hw
    exact hne x hx
  · intro x hx
    have hlt := (List.getElem?_eq_some_iff.mp (selectPayloads_mem hitems hx).1).1
    exact h1 x hx (by simpa using hlt)

theorem createReferencePayload_ok (h : createReferencePayload env name claim size = .ok r) :
    isPlainReference r = true ∧ env.toVec ⟨name, claim⟩ = .ok r.data := by
  obtain ⟨data, hd, h⟩ := bind_eq_ok.mp h
  cases h
  refine ⟨?_, mapError_eq_ok.mp hd⟩
  rfl

/-- References can be read. -/
def ReadsBack (env : Env) : Prop := ∀ reference text, env.toVec reference = .ok text →
    env.fromSlice text = .ok reference

theorem findReference_created (hread : ReadsBack env) (h : createReferencePayload env name claim size = .ok r)
    (i : Nat) : findReference env (r, i) = .ok (some ⟨i, name, claim⟩) := by
  obtain ⟨hplain, hvec⟩ := createReferencePayload_ok h
  simp only [findReference, parseReference, hplain, if_true, hread _ _ hvec]
  rfl

/-! ## What is retrieved -/

theorem findReference_index {q : Payload} {y : Fetch} (h : findReference env (q, i) = .ok (some y)) : y.index = i := by
  simp only [findReference] at h
  split at h
  · obtain ⟨reference, -, h⟩ := bind_eq_ok.mp h
    cases h
    rfl
  · cases h

/-- The call that stores payloads of a field for a driver. -/
def StoreCall (env : Env) (storage : ExternalStorage) (message : List PayloadField) (field pointer : Nat)
    (payloads : List Payload) : Prop :=
  ∃ f items x, message[field]? = some f ∧ shouldTransform f.path = true ∧
    selectPayloads env storage field f.payloads = .ok items ∧ x ∈ items ∧ pointer = x.driver.pointer ∧
    payloads = (groupOf (·.driver.name) items x).map (·.payload)

/-- The driver has given this claim for the payload. -/
def Issued (env : Env) (storage : ExternalStorage) (message : List PayloadField) (pointer : Nat) (claim : ClaimData)
    (payload : Payload) : Prop :=
  ∃ field payloads claims, StoreCall env storage message field pointer payloads ∧
    env.store field pointer payloads = .ok claims ∧ (payload, claim) ∈ payloads.zip claims

/-- Drivers return what was stored for their claims. -/
def Honest (env : Env) (storage : ExternalStorage) (message : List PayloadField) : Prop :=
  ∀ field pointer claims payloads, List.Forall₂ (Issued env storage message pointer) claims payloads →
    env.retrieve field pointer claims = .ok payloads

section Retrieving

variable {message : List PayloadField} {payloads stored : List Payload}

/-- The payload itself, or a reference to it. -/
def StandsFor (env : Env) (storage : ExternalStorage) (message : List PayloadField) (payload : Payload)
    (x : Payload × Nat) : Prop :=
  (findReference env x = .ok none ∧ x.1 = payload) ∨
    ∃ y d, findReference env x = .ok (some y) ∧ storage.driver y.driverName = some d ∧
      Issued env storage message d.pointer y.claimData payload

def original (payloads : List Payload) (y : Fetch) : Payload := payloads.getD y.index .default

variable (hlen : stored.length = payloads.length)
  (hstands : ∀ i p q, payloads[i]? = some p → stored[i]? = some q → StandsFor env storage message p (q, i))

include hlen hstands

/-- References that are found were given. -/
theorem found_issued {items : List Fetch} (h : findReferences env stored = .ok items) {y : Fetch} (hy : y ∈ items) :
    y.index < payloads.length ∧ ∃ d, storage.driver y.driverName = some d ∧
      Issued env storage message d.pointer y.claimData (original payloads y) := by
  obtain ⟨i, q, hi, hf⟩ := (collect_ok h).2 y hy
  obtain rfl := findReference_index hf
  have hlt : y.index < payloads.length := hlen ▸ (List.getElem?_eq_some_iff.mp hi).1
  have hp : payloads[y.index]? = some (original payloads y) := by
    simp [original, List.getD_eq_getElem?_getD, hlt]
  refine ⟨hlt, ?_⟩
  rcases hstands y.index _ q hp hi with ⟨hn, -⟩ | ⟨y', d, hf', hd, hiss⟩
  · rw [hf] at hn
    cases hn
  · rw [hf] at hf'
    cases hf'
    exact ⟨d, hd, hiss⟩

theorem retrieveWork_call (honest : Honest env storage message) {items : List Fetch}
    (h : findReferences env stored = .ok items) {y : Fetch} (hy : y ∈ items) :
    (retrieveWork env storage field).call y.driverName (groupOf (·.driverName) items y) =
      .ok ((groupOf (·.driverName) items y).map (original payloads)) := by
  obtain ⟨-, d, hd, -⟩ := found_issued hlen hstands h hy
  have hcall : env.retrieve field d.pointer ((groupOf (·.driverName) items y).map (·.claimData)) =
      .ok ((groupOf (·.driverName) items y).map (original payloads)) := by
    apply honest
    rw [List.forall₂_map_left_iff, List.forall₂_map_right_iff, List.forall₂_same]
    intro z hz
    obtain ⟨hzm, hzn⟩ := List.mem_filter.mp hz
    obtain ⟨-, d', hd', hiss⟩ := found_issued hlen hstands h hzm
    rw [show z.driverName = y.driverName from of_decide_eq_true hzn, hd] at hd'
    cases hd'
    exact hiss
  simp only [retrieveWork, resolveDriver, hd]
  exact mapError_eq_ok.mpr hcall

theorem retrievePayloads_eq (honest : Honest env storage message) (order : Order (String × List Fetch)) :
    retrievePayloads env storage order field stored = .ok payloads := by
  have hfind : ∀ i q, stored[i]? = some q → ∃ o, findReference env (q, i) = .ok o := by
    intro i q hi
    have hlt : i < payloads.length := hlen ▸ (List.getElem?_eq_some_iff.mp hi).1
    rcases hstands i _ q (List.getElem?_eq_getElem hlt) hi with ⟨hn, -⟩ | ⟨y, d, hf, -⟩
    · exact ⟨_, hn⟩
    · exact ⟨_, hf⟩
  obtain ⟨items, hitems⟩ := collect_complete hfind
  have hresolve : ∀ g ∈ order.run (groupBy (·.driverName) items), ∃ d, resolveDriver storage g.1 = .ok d := by
    rintro ⟨name, group⟩ hg
    obtain ⟨⟨y, hy, rfl⟩, -⟩ := mem_groupBy.mp ((order.mem_run).mp hg)
    obtain ⟨-, d, hd, -⟩ := found_issued hlen hstands hitems hy
    exact ⟨d, by rw [resolveDriver, hd]⟩
  obtain ⟨ds, hds⟩ := mapM_complete hresolve
  obtain ⟨r, hr⟩ : ∃ r, (retrieveWork env storage field).runAll order (·.driverName) items = .ok r := by
    refine runAll_complete order fun y hy => ?_
    exact ⟨_, retrieveWork_call hlen hstands honest hitems hy, by simp, fun z b _ => ⟨b, rfl⟩⟩
  have hnodup : (items.map (·.index)).Nodup := nodup_collect (fun q i y h => findReference_index h) hitems
  obtain ⟨h1, h2⟩ := getElem?_runAll hr hnodup stored
  have hresult : retrievePayloads env storage order field stored =
      .ok (scatter (r.map fun x => (x.1.index, x.2)) stored) := by
    rw [retrievePayloads, show findReferences env stored = .ok items from hitems]
    simp only [bind, Except.bind]
    rw [hds]
    simp only [hr]
    rfl
  rw [hresult]
  refine congrArg Except.ok (List.ext_getElem? fun i => ?_)
  by_cases hi : ∃ y ∈ items, y.index = i
  · obtain ⟨y, hy, rfl⟩ := hi
    have hlt := (found_issued hlen hstands hitems hy).1
    obtain ⟨c, ⟨out, b, hout, -, hb, hc⟩, hat⟩ := h1 y hy (hlen ▸ hlt)
    rw [retrieveWork_call hlen hstands honest hitems hy] at hout
    cases hout
    cases hc
    rw [hat, mem_zip_map hb]
    simp [original, List.getD_eq_getElem?_getD, hlt]
  · have hne : ∀ y ∈ items, y.index ≠ i := fun y hy he => hi ⟨y, hy, he⟩
    rw [h2 i hne]
    by_cases hlt : i < payloads.length
    · have hs : stored[i]? = some stored[i] := List.getElem?_eq_getElem (hlen ▸ hlt)
      rcases hstands i _ _ (List.getElem?_eq_getElem hlt) hs with ⟨-, he⟩ | ⟨y, d, hf, -⟩
      · rw [hs, List.getElem?_eq_getElem hlt]
        exact congrArg some he
      · obtain ⟨o, ho, hmem⟩ := (collect_ok hitems).1 i _ hs
        rw [hf] at ho
        cases ho
        exact absurd (findReference_index hf) (hne y (hmem y rfl))
    · rw [List.getElem?_eq_none (by omega), List.getElem?_eq_none (by omega)]

end Retrieving

/-! ## Both passes -/

section Both

variable {message stored : List PayloadField} {fields fields' : Order (PayloadField × Nat)}
  {groups : Nat → Order (String × List Offload)} {groups' : Nat → Order (String × List Fetch)}

/-- What is not stored does not look like a reference. -/
def InlineApart (env : Env) (storage : ExternalStorage) (message : List PayloadField) : Prop :=
  ∀ field f i p, message[field]? = some f → shouldTransform f.path = true → f.payloads[i]? = some p →
    selectPayload env storage field (p, i) = .ok none → isPlainReference p = false

variable {f : PayloadField} {payloads : List Payload} {pointer : Nat} {claims : List ClaimData}

theorem gives_issued {items : List Offload} (hf : message[field]? = some f) (ht : shouldTransform f.path = true)
    (hitems : selectPayloads env storage field f.payloads = .ok items) {x : Offload} (hx : x ∈ items) {r : Payload}
    (hg : (storeWork env field).Gives (·.driver.name) items x r) :
    ∃ d claim, storage.driver x.driver.name = some d ∧ Issued env storage message d.pointer claim x.payload ∧
      createReferencePayload env x.driver.name claim x.size = .ok r := by
  obtain ⟨claims, claim, hcall, -, hmem, hfin⟩ := hg
  obtain ⟨-, d, hd, hp⟩ := selectPayloads_mem hitems hx
  have hcall := (storeWork_call hitems hx).symm.trans hcall
  refine ⟨d, claim, hd, ⟨field, _, claims, ⟨f, items, x, hf, ht, hitems, hx, hp, rfl⟩, ?_, ?_⟩, hfin⟩
  · rw [hp]
    exact mapError_eq_ok.mp hcall
  · rw [List.zip_map_left, List.mem_map]
    exact ⟨(x, claim), hmem, rfl⟩

theorem storePayloads_standsFor (hread : ReadsBack env) (hinline : InlineApart env storage message)
    (hf : message[field]? = some f) (ht : shouldTransform f.path = true)
    (h : storePayloads env storage (groups field) field f.payloads = .ok payloads) :
    payloads.length = f.payloads.length ∧ ∀ i p q, f.payloads[i]? = some p → payloads[i]? = some q →
      StandsFor env storage message p (q, i) := by
  obtain ⟨items, hitems, hlen, hkept, hgives⟩ := storePayloads_ok h
  refine ⟨hlen, fun i p q hp hq => ?_⟩
  obtain ⟨o, ho, hmem⟩ := (collect_ok hitems).1 i p hp
  cases o with
  | none =>
    have hkeep := hkept i p hp ho
    rw [hq] at hkeep
    cases hkeep
    exact .inl ⟨by simp [findReference, hinline field f i p hf ht hp ho], rfl⟩
  | some x =>
    have hx := hmem x rfl
    obtain ⟨rfl, rfl, -⟩ := selectPayload_some ho
    obtain ⟨r, hg, hr⟩ := hgives x hx
    rw [hq] at hr
    cases hr
    obtain ⟨d, claim, hd, hiss, hcreate⟩ := gives_issued hf ht hitems hx hg
    exact .inr ⟨_, d, findReference_created hread hcreate _, hd, hiss⟩

/-- The message comes back. -/
theorem retrieveIn_storeIn (hread : ReadsBack env) (honest : Honest env storage message)
    (hinline : InlineApart env storage message) (h : storeIn env (some storage) fields groups message = .ok stored) :
    retrieveIn env (some storage) fields' groups' stored = .ok message := by
  obtain ⟨hlen, hpass⟩ := pass_ok h
  have hfield : ∀ i f', stored[i]? = some f' → ∃ f, message[i]? = some f ∧ f'.path = f.path ∧
      (shouldTransform f.path = true → retrievePayloads env storage (groups' i) i f'.payloads = .ok f.payloads) ∧
      (shouldTransform f.path = false → f' = f) := by
    intro i f' hi
    have hlt : i < message.length := hlen ▸ (List.getElem?_eq_some_iff.mp hi).1
    obtain ⟨htrans, hkeep⟩ := hpass i _ (List.getElem?_eq_getElem hlt)
    refine ⟨_, List.getElem?_eq_getElem hlt, ?_⟩
    cases ht : shouldTransform (message[i]).path with
    | true =>
      obtain ⟨payloads, hs, hat⟩ := htrans ht
      rw [hi] at hat
      cases hat
      obtain ⟨hl, hstands⟩ := storePayloads_standsFor hread hinline (List.getElem?_eq_getElem hlt) ht hs
      exact ⟨rfl, fun _ => retrievePayloads_eq hl hstands honest _, by simp⟩
    | false =>
      have hat := hkeep ht
      rw [hi] at hat
      cases hat
      exact ⟨rfl, by simp, fun _ => rfl⟩
  have hall : ∀ i f', stored[i]? = some f' → shouldTransform f'.path = true →
      ∃ payloads, retrievePayloads env storage (groups' i) i f'.payloads = .ok payloads := by
    intro i f' hi ht
    obtain ⟨f, -, hpath, hret, -⟩ := hfield i f' hi
    exact ⟨_, hret (hpath ▸ ht)⟩
  obtain ⟨result, hresult⟩ := pass_complete fields' hall
  obtain ⟨hlen', hpass'⟩ := pass_ok hresult
  refine hresult.trans (congrArg Except.ok (List.ext_getElem? fun i => ?_))
  by_cases hlt : i < stored.length
  · obtain ⟨f, hf, hpath, hret, hsame⟩ := hfield i _ (List.getElem?_eq_getElem hlt)
    obtain ⟨htrans, hkeep⟩ := hpass' i _ (List.getElem?_eq_getElem hlt)
    rw [hf]
    cases ht : shouldTransform f.path with
    | true =>
      obtain ⟨payloads, hs, hat⟩ := htrans (hpath ▸ ht)
      rw [hret ht] at hs
      cases hs
      rw [hat, hpath]
    | false => rw [hkeep (hpath ▸ ht), hsame ht]
  · rw [List.getElem?_eq_none (by omega), List.getElem?_eq_none (by omega)]

/-! ## Wrong numbers of results -/

/-- The call that retrieves payloads of a field from a driver. -/
def RetrieveCall (env : Env) (storage : ExternalStorage) (message : List PayloadField) (field pointer : Nat)
    (claims : List ClaimData) : Prop :=
  ∃ f items y d, message[field]? = some f ∧ shouldTransform f.path = true ∧ findReferences env f.payloads = .ok items ∧
    y ∈ items ∧ storage.driver y.driverName = some d ∧ pointer = d.pointer ∧
    claims = (groupOf (·.driverName) items y).map (·.claimData)

/-- A driver must give one claim for each payload. -/
theorem storeIn_contract (h : storeIn env (some storage) fields groups message = .ok stored)
    (hcall : StoreCall env storage message field pointer payloads)
    (hstore : env.store field pointer payloads = .ok claims) : claims.length = payloads.length := by
  obtain ⟨f, items, x, hf, ht, hitems, hx, rfl, rfl⟩ := hcall
  obtain ⟨result, hs, -⟩ := ((pass_ok h).2 field f hf).1 ht
  obtain ⟨items', hitems', -, -, hgives⟩ := storePayloads_ok hs
  rw [hitems] at hitems'
  cases hitems'
  obtain ⟨r, ⟨out, b, hout, hlen, -⟩, -⟩ := hgives x hx
  have hout := (storeWork_call hitems hx).symm.trans hout
  rw [mapError_eq_ok.mp hout] at hstore
  cases hstore
  simpa using hlen

theorem retrieveIn_contract (h : retrieveIn env (some storage) fields' groups' message = .ok stored)
    (hcall : RetrieveCall env storage message field pointer claims)
    (hretrieve : env.retrieve field pointer claims = .ok payloads) : payloads.length = claims.length := by
  obtain ⟨f, items, y, d, hf, ht, hitems, hy, hd, rfl, rfl⟩ := hcall
  obtain ⟨result, hs, -⟩ := ((pass_ok h).2 field f hf).1 ht
  obtain ⟨items', hitems', hs⟩ := bind_eq_ok.mp hs
  rw [hitems] at hitems'
  cases hitems'
  obtain ⟨ds, -, hs⟩ := bind_eq_ok.mp hs
  obtain ⟨r, hr, -⟩ := bind_eq_ok.mp hs
  obtain ⟨c, hc⟩ := (runAll_ok hr).1 y hy
  obtain ⟨-, out, b, hout, hlen, -⟩ := (runAll_ok hr).2 y c hc
  simp only [retrieveWork, resolveDriver, hd] at hout
  rw [mapError_eq_ok.mp hout] at hretrieve
  cases hretrieve
  simpa using hlen

theorem exists_error {α : Type} {x : Except ExternalStorageError α} (h : ∀ a, x ≠ .ok a) : ∃ e, x = .error e := by
  cases x with
  | error e => exact ⟨e, rfl⟩
  | ok a => exact absurd rfl (h a)

/-- **Storing and retrieving gives the message back**, in whatever order fields and drivers finish, if drivers return
what they stored and no payload left in place looks like a reference. Search attributes are not touched, and a wrong
number of results is an error. -/
theorem store_retrieve_roundtrip (hread : ReadsBack env) (storage : ExternalStorage) (message : List PayloadField)
    (fields fields' : Order (PayloadField × Nat)) (groups : Nat → Order (String × List Offload))
    (groups' : Nat → Order (String × List Fetch)) :
    (∀ stored, storeIn env (some storage) fields groups message = .ok stored → Honest env storage message →
      InlineApart env storage message → retrieveIn env (some storage) fields' groups' stored = .ok message) ∧
    (∀ result, storeIn env (some storage) fields groups message = .ok result ∨
        retrieveIn env (some storage) fields' groups' message = .ok result →
      ∀ (i : Nat) (f : PayloadField), message[i]? = some f → isSearchAttributesPath f.path = true →
        result[i]? = some f) ∧
    (∀ field pointer payloads claims, StoreCall env storage message field pointer payloads →
      env.store field pointer payloads = .ok claims → claims.length ≠ payloads.length →
      ∃ e, storeIn env (some storage) fields groups message = .error e) ∧
    ∀ field pointer claims payloads, RetrieveCall env storage message field pointer claims →
      env.retrieve field pointer claims = .ok payloads → payloads.length ≠ claims.length →
      ∃ e, retrieveIn env (some storage) fields' groups' message = .error e := by
  refine ⟨?_, ?_, ?_, ?_⟩
  · intro stored h honest hinline
    exact retrieveIn_storeIn hread honest hinline h
  · intro result h i f hi hp
    have ht : shouldTransform f.path = false := by simp [shouldTransform, hp]
    rcases h with h | h <;> exact ((pass_ok h).2 i f hi).2 ht
  · intro field pointer payloads claims hcall hstore hne
    exact exists_error fun stored h => hne (storeIn_contract h hcall hstore)
  · intro field pointer claims payloads hcall hretrieve hne
    exact exists_error fun stored h => hne (retrieveIn_contract h hcall hretrieve)

end Both

/-! ## A driver whose claims hold the data -/

def plain (data : String) : Payload := ⟨∅, data, []⟩

def claimOf (data : String) : ClaimData := (∅ : ClaimData).insert "data" data

/-- Payloads without metadata, with the data in the claim. -/
def diskDriver : Env where
  encodedLen payload := payload.data.length
  toVec reference := if reference.driverName = "disk" then
    match reference.claimData.entries with
    | [⟨"data", data⟩] => .ok data
    | _ => .error "claim data"
  else .error "driver"
  fromSlice text := .ok ⟨"disk", claimOf text⟩
  store _ _ payloads := .ok (payloads.map fun payload => claimOf payload.data)
  retrieve _ _ claims := .ok (claims.map fun claim => plain ((claim.lookup "data").getD ""))

def diskStorage : ExternalStorage := ⟨[⟨"disk", 7⟩], fun _ _ _ => some ⟨"disk", 7⟩, 4⟩

def twoFields : List PayloadField := [⟨"Payloads.payloads", [plain "id", plain "large"]⟩,
  ⟨"SearchAttributes.indexed_fields", [plain "attribute"]⟩]

theorem readsBack_disk : ReadsBack diskDriver := by
  rintro ⟨name, claim⟩ text h
  simp only [diskDriver] at h ⊢
  split at h
  · next hname =>
    split at h
    · next he =>
      cases h
      have hclaim : claimOf text = claim := AList.ext he.symm
      rw [hname, hclaim]
    · cases h
  · cases h

theorem honest_disk : Honest diskDriver diskStorage twoFields := by
  intro field pointer claims payloads h
  have hone : ∀ claim payload, Issued diskDriver diskStorage twoFields pointer claim payload →
      plain ((claim.lookup "data").getD "") = payload := by
    rintro claim payload ⟨i, ps, cs, ⟨f, items, x, hf, -, hitems, hx, -, rfl⟩, hstore, hm⟩
    cases hstore
    rw [← List.map_prod_left_eq_zip] at hm
    obtain ⟨p, hp, he⟩ := List.mem_map.mp hm
    cases he
    obtain ⟨y, hy, rfl⟩ := List.mem_map.mp hp
    have hmem := List.mem_of_getElem? (selectPayloads_mem hitems (List.mem_filter.mp hy).1).1
    have hfield := List.mem_of_getElem? hf
    simp only [twoFields, List.mem_cons, List.not_mem_nil, or_false] at hfield
    rcases hfield with rfl | rfl
    · rcases List.mem_pair.mp hmem with he | he <;> rw [he] <;> rfl
    · rw [List.mem_singleton.mp hmem]
      rfl
  refine congrArg Except.ok ?_
  induction h with
  | nil => rfl
  | cons hi _ ih => rw [List.map_cons, ih, hone _ _ hi]

theorem inlineApart_disk : InlineApart diskDriver diskStorage twoFields := by
  intro field f i p hf ht hp hs
  have hfield := List.mem_of_getElem? hf
  have hmem := List.mem_of_getElem? hp
  simp only [twoFields, List.mem_cons, List.not_mem_nil, or_false] at hfield
  rcases hfield with rfl | rfl
  · rcases List.mem_pair.mp hmem with rfl | rfl <;> rfl
  · rw [List.mem_singleton.mp hmem]
    rfl

/-- The large payload is stored, and comes back. -/
theorem store_retrieve_roundtrip_one :
    ∃ stored, storeIn diskDriver (some diskStorage) .asListed (fun _ => .reversed) twoFields = .ok stored ∧
      (stored.flatMap (·.payloads)).map isPlainReference = [false, true, false] ∧
      retrieveIn diskDriver (some diskStorage) .reversed (fun _ => .asListed) stored = .ok twoFields := by
  have href : (storeIn diskDriver (some diskStorage) .asListed (fun _ => .reversed) twoFields).toOption.map
      (fun stored => (stored.flatMap (·.payloads)).map isPlainReference) = some [false, true, false] := by
    decide +kernel
  cases hs : storeIn diskDriver (some diskStorage) .asListed (fun _ => .reversed) twoFields with
  | error e =>
    rw [hs] at href
    cases href
  | ok stored =>
    rw [hs] at href
    have h := store_retrieve_roundtrip readsBack_disk diskStorage twoFields .asListed .reversed (fun _ => .reversed)
      fun _ => .asListed
    exact ⟨stored, rfl, Option.some.inj href, h.1 stored hs honest_disk inlineApart_disk⟩

end SdkCore.ExternalStorageRunner
