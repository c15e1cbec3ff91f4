import InterceptingProxy.ProxyError
import InterceptingProxy.Text.Duration

set_option autoImplicit false

/-! # The pool of outbound channels

A pool keeps one channel per destination and kind of transport. Its map leads from a key to a
cell, and a cell is vacant, busy or filled. A caller looks up the cell of its key or makes a new
one; it then waits until the cell is filled, or until the cell is vacant, in which case it dials
while the cell is busy. A dial that succeeds fills the cell; one that fails leaves it vacant, so
that the next waiter dials on the same cell, and afterwards the caller takes the cell out of the
map if it is still there and not filled.

`Pool.move?` is one step of one caller, and callers may take their steps in any order. `Pool.get`
is a caller that has the pool to itself, `Pool.getAll` a group of callers that take turns. -/

namespace InterceptingProxy

/-- What a channel is kept under: the destination as written, and whether it is secured. -/
structure PoolKey where
  destination : Text
  tls : Bool
  deriving DecidableEq, Repr

/-- A channel to a destination. Channels are numbered by the attempts to make one. -/
structure Channel where
  key : PoolKey
  number : Nat
  deriving DecidableEq, Repr

/-- A place for one channel. -/
inductive Cell where
  | vacant
  /-- Some caller is dialing for this cell. -/
  | busy
  | filled (channel : Channel)
  deriving DecidableEq, Repr

namespace Cell

/-- Whether the cell holds a channel. -/
def isFilled : Cell → Bool
  | .filled _ => true
  | _ => false

end Cell

/-- Cells under their keys. A cell outlives its entry while callers hold it. -/
structure Pool where
  /-- The number of the cell of each key. -/
  entries : List (PoolKey × Nat) := []
  /-- All cells that were ever made. -/
  cells : List Cell := []
  /-- How many attempts to connect were begun. -/
  attempts : Nat := 0
  deriving DecidableEq, Repr

/-- How far a caller has come. -/
inductive Stage where
  | arriving
  | waiting (cell : Nat)
  /-- The attempt has begun, and this is how it is going to end. -/
  | dialing (cell : Nat) (result : Except PoolError Channel)
  /-- The attempt failed and the cell is yet to be taken out of the map. -/
  | forgetting (cell : Nat) (error : PoolError)
  | done (result : Except PoolError Channel)

/-- A caller that wants the channel of a key. -/
structure PoolCaller where
  key : PoolKey
  stage : Stage := .arriving

/-- A step of a caller. -/
inductive PoolMove where
  /-- Looks up the cell, or makes one. -/
  | lookUp
  /-- Takes the channel from a filled cell. -/
  | take
  /-- Begins an attempt on a vacant cell; it is going to end as given. -/
  | dial (result : Except PoolError Unit)
  /-- The attempt ends. -/
  | conclude
  /-- Takes the cell of a failed attempt out of the map. -/
  | forget

namespace Pool

/-- The number of the cell of a key. -/
def find? (p : Pool) (key : PoolKey) : Option Nat := p.entries.lookup key

/-- The cell of a number. -/
def cell (p : Pool) (id : Nat) : Cell := p.cells[id]?.getD .vacant

/-- Puts something into a cell. -/
def setCell (p : Pool) (id : Nat) (c : Cell) : Pool := { p with cells := p.cells.set id c }

/-- The cell of a key, made if there is none. -/
def enter (p : Pool) (key : PoolKey) : Nat × Pool :=
  match p.find? key with
  | some id => (id, p)
  | none =>
    let id := p.cells.length
    (id, { p with entries := p.entries ++ [(key, id)], cells := p.cells ++ [.vacant] })

/-- Takes a cell out of the map, unless the key has another cell by now or the cell is filled. -/
def forget (p : Pool) (key : PoolKey) (id : Nat) : Pool :=
  if p.find? key = some id ∧ !(p.cell id).isFilled then
    { p with entries := p.entries.filter fun e => e.1 ≠ key }
  else p

/-- A pool as it shows itself: how many options its endpoints have, and how long connecting may
    take, in milliseconds. -/
def describe (options timeout : Nat) : Text :=
  "ConnPool \x7b endpoint_options: ".toList ++ Text.ofNat options ++ ", connect_timeout: ".toList
    ++ Text.ofMilliseconds timeout ++ ", .. \x7d".toList

/-- How many keys have a channel. -/
def size (p : Pool) : Nat := p.entries.countP fun e => (p.cell e.2).isFilled

/-- One step of a caller; `none` if it cannot take it now. -/
def move? (p : Pool) (c : PoolCaller) : PoolMove → Option (PoolCaller × Pool)
  | .lookUp =>
    match c.stage with
    | .arriving => let (id, p) := p.enter c.key; some ({ c with stage := .waiting id }, p)
    | _ => none
  | .take =>
    match c.stage with
    | .waiting id =>
      match p.cell id with
      | .filled channel => some ({ c with stage := .done (.ok channel) }, p)
      | _ => none
    | _ => none
  | .dial result =>
    match c.stage with
    | .waiting id =>
      match p.cell id with
      | .vacant =>
        some ({ c with stage := .dialing id (result.map fun () => ⟨c.key, p.attempts⟩) },
          { p.setCell id .busy with attempts := p.attempts + 1 })
      | _ => none
    | _ => none
  | .conclude =>
    match c.stage with
    | .dialing id (.ok channel) =>
      some ({ c with stage := .done (.ok channel) }, p.setCell id (.filled channel))
    | .dialing id (.error e) =>
      some ({ c with stage := .forgetting id e }, p.setCell id .vacant)
    | _ => none
  | .forget =>
    match c.stage with
    | .forgetting id e => some ({ c with stage := .done (.error e) }, p.forget c.key id)
    | _ => none

/-! ## Callers that take turns -/

section Turns

variable {σ : Type} (connect : Channel → σ → Except PoolError Unit × σ)

/-- The step that a caller takes when it is its turn, if it can take one. An attempt to connect
    changes the world outside. -/
def turn (p : Pool) (c : PoolCaller) (world : σ) : (PoolCaller × Pool) × σ :=
  let moved (m : PoolMove) := (p.move? c m).getD (c, p)
  match c.stage with
  | .arriving => (moved .lookUp, world)
  | .waiting id =>
    match p.cell id with
    | .vacant =>
      let (result, world) := connect ⟨c.key, p.attempts⟩ world
      (moved (.dial result), world)
    | _ => (moved .take, world)
  | .dialing _ _ => (moved .conclude, world)
  | .forgetting _ _ => (moved .forget, world)
  | .done _ => ((c, p), world)

/-- Every caller takes a turn, in order. -/
def round (p : Pool) (world : σ) : List PoolCaller → List PoolCaller × Pool × σ
  | [] => ([], p, world)
  | c :: rest =>
    let ((c, p), world) := turn connect p c world
    let (rest, p, world) := round p world rest
    (c :: rest, p, world)

/-- A number of rounds. -/
def rounds : Nat → Pool → σ → List PoolCaller → List PoolCaller × Pool × σ
  | 0, p, world, callers => (callers, p, world)
  | n + 1, p, world, callers =>
    let (callers, p, world) := round connect p world callers
    rounds n p world callers

/-- How long a caller needs that waits for no other one: it looks up, dials, concludes, forgets. -/
def movesPerCaller : Nat := 4

/-- The result of a caller that is done. -/
def result? (c : PoolCaller) : Option (Except PoolError Channel) :=
  match c.stage with
  | .done r => some r
  | _ => none

/-- What callers get that want the channels of these keys at the same time. -/
def getAll (p : Pool) (world : σ) (keys : List PoolKey) :
    List (Except PoolError Channel) × Pool × σ :=
  let callers := keys.map fun key => { key : PoolCaller }
  let (callers, p, world) := rounds connect (movesPerCaller * (keys.length + 1)) p world callers
  (callers.filterMap result?, p, world)

/-- What a single caller gets. -/
def get (p : Pool) (world : σ) (key : PoolKey) : Except PoolError Channel × Pool × σ :=
  let (results, p, world) := getAll connect p world [key]
  (results.head?.getD (.error (.connect key.destination [])), p, world)

end Turns

end Pool

end InterceptingProxy
