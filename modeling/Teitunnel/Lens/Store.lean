import Teitunnel.Lens.Capture

/-!
# The capture store

A bounded ring of exchanges for each tap, ordered by the tap's numbers, and an index from
exchange ids to the ring and number they stand under.
-/

namespace Teitunnel.Lens

/-- The exchanges kept of one tap, oldest number first. -/
structure Ring where
  capacity : ℕ
  items : List Exchange

/-- The default store. -/
structure MemoryStore where
  defaultCapacity : ℕ
  rings : TapId → Option Ring
  index : ExchangeId → Option (TapId × ℕ)

/-- Where the exchange with number `seq` stands, or where it belongs. -/
def search (items : List Exchange) (seq : ℕ) : Except ℕ ℕ :=
  match items.findIdx? fun probe => probe.seq = seq with
  | some position => .ok position
  | none => .error (items.countP fun probe => probe.seq < seq)

/-- The oldest exchanges go, out of the index as well, until `capacity` are left. -/
def evict (capacity : ℕ) (index : ExchangeId → Option (TapId × ℕ)) :
    List Exchange → List Exchange × (ExchangeId → Option (TapId × ℕ))
  | [] => ([], index)
  | old :: rest =>
      if (old :: rest).length > capacity then
        evict capacity (Function.update index old.id none) rest
      else (old :: rest, index)

namespace MemoryStore

/-- A store keeping `defaultCapacity` exchanges per tap unless configured otherwise. -/
def new (defaultCapacity : ℕ) : MemoryStore where
  defaultCapacity := max defaultCapacity 1
  rings _ := none
  index _ := none

/-- Sets how many exchanges of `tap` are kept. -/
def configure (store : MemoryStore) (tap : TapId) (capacity : ℕ) : MemoryStore :=
  let capacity := max capacity 1
  let items := ((store.rings tap).map Ring.items).getD []
  let (items, index) := evict capacity store.index items
  { store with rings := Function.update store.rings tap (some ⟨capacity, items⟩), index }

/-- The ring of `tap`, a new one if there is none. -/
def ring (store : MemoryStore) (tap : TapId) : Ring :=
  (store.rings tap).getD ⟨store.defaultCapacity, []⟩

/-- Keeps `exchange`, in place of an earlier state of it. -/
def put (store : MemoryStore) (exchange : Exchange) : MemoryStore :=
  let ring := store.ring exchange.tap
  match search ring.items exchange.seq with
  | .ok position =>
      { store with
        rings := Function.update store.rings exchange.tap
          (some { ring with items := ring.items.set position exchange }) }
  | .error position =>
      if position = 0 ∧ ring.items.length ≥ ring.capacity then
        -- older than everything in a full ring
        { store with rings := Function.update store.rings exchange.tap (some ring) }
      else
        let index := Function.update store.index exchange.id (some (exchange.tap, exchange.seq))
        let (items, index) := evict ring.capacity index (ring.items.insertIdx position exchange)
        { store with
          rings := Function.update store.rings exchange.tap (some { ring with items }), index }

def get (store : MemoryStore) (id : ExchangeId) : Option Exchange := do
  let (tap, seq) ← store.index id
  let ring ← store.rings tap
  match search ring.items seq with
  | .ok position => ring.items[position]?
  | .error _ => none

/-- Forgets the exchanges of `tap`, or all. -/
def clear (store : MemoryStore) (tap : Option TapId) : MemoryStore :=
  match tap with
  | some tap =>
      match store.rings tap with
      | some ring =>
          { store with
            rings := Function.update store.rings tap (some { ring with items := [] })
            index := ring.items.foldl (fun index e => Function.update index e.id none) store.index }
      | none => store
  | none =>
      { store with
        rings := fun tap => (store.rings tap).map fun ring => { ring with items := [] }
        index := fun _ => none }

end MemoryStore

/-! ## The runtime -/

/-- A tap as the runtime sees it. -/
structure TapRuntime where
  id : TapId
  /-- The last number handed out. -/
  seq : ℕ := 0

/-- The taps, the store, and every exchange that ever started. -/
structure Runtime where
  store : MemoryStore
  /-- Which of the runtimes serves a tap now. -/
  taps : TapId → Option ℕ
  /-- One for each time a tap was added; requests keep the one they came through. -/
  runtimes : List TapRuntime
  /-- The exchanges started, and through which runtime. -/
  started : List (ℕ × Exchange)

/-- What can happen to the runtime. -/
inductive Action where
  | addTap (id : TapId) (capacity : Option ℕ)
  | removeTap (id : TapId)
  | updateTap (id : TapId) (capacity : Option ℕ)
  /-- A request or a replay gets its number from the runtime `life`. -/
  | start (life : ℕ) (exchange : Exchange)
  /-- A state of a started exchange is stored. -/
  | publish (exchange : Exchange)
  | clear (tap : Option TapId)

/-- The store, told a tap's capacity when there is one. -/
def MemoryStore.configureIf (store : MemoryStore) (tap : TapId) : Option ℕ → MemoryStore
  | some capacity => store.configure tap capacity
  | none => store

/-- The runtime a started exchange came through. -/
def Runtime.lifeOf (lens : Runtime) (id : ExchangeId) : Option ℕ :=
  (lens.started.find? fun entry => entry.2.id = id).map Prod.fst

/-- A state of an exchange that started with this id, number and tap. -/
def Runtime.Knows (lens : Runtime) (exchange : Exchange) : Prop :=
  ∃ entry ∈ lens.started, entry.2.id = exchange.id ∧ entry.2.seq = exchange.seq ∧
    entry.2.tap = exchange.tap

instance (lens : Runtime) (exchange : Exchange) : Decidable (lens.Knows exchange) :=
  inferInstanceAs (Decidable (∃ entry ∈ lens.started, _))

/-- One action, unless it is refused. -/
def Runtime.step (lens : Runtime) : Action → Option Runtime
  | .addTap id capacity =>
      match lens.taps id with
      | some _ => none
      | none => some { lens with
          store := lens.store.configureIf id capacity
          taps := Function.update lens.taps id (some lens.runtimes.length)
          runtimes := lens.runtimes ++ [⟨id, 0⟩] }
  | .removeTap id =>
      match lens.taps id with
      | some _ => some { lens with taps := Function.update lens.taps id none }
      | none => none
  | .updateTap id capacity =>
      -- the runtime found for it may be one that was removed in the meantime
      if ∃ runtime ∈ lens.runtimes, runtime.id = id then
        some { lens with store := lens.store.configureIf id capacity }
      else none
  | .start life exchange =>
      match lens.runtimes[life]? with
      | some runtime =>
          if exchange.tap = runtime.id ∧ exchange.seq = runtime.seq + 1 ∧
              ∀ entry ∈ lens.started, entry.2.id ≠ exchange.id then
            some { lens with
              runtimes := lens.runtimes.set life { runtime with seq := runtime.seq + 1 }
              started := lens.started ++ [(life, exchange)] }
          else none
      | none => none
  | .publish exchange =>
      if lens.Knows exchange then some { lens with store := lens.store.put exchange } else none
  | .clear tap => some { lens with store := lens.store.clear tap }

/-- A runtime without taps. -/
def Runtime.new (defaultCapacity : ℕ) : Runtime where
  store := .new defaultCapacity
  taps _ := none
  runtimes := []
  started := []

end Teitunnel.Lens
