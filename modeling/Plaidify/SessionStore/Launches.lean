import Plaidify.Lib.Interleaving
import Plaidify.SessionStore.Backends

/-!
# Redeeming launch tokens

`create_link_bootstrap` and `exchange_link_bootstrap` of
`src/src/routers/link_sessions.py` over `consume_link_launch_bootstrap`. Under
Redis a launch id is consumed by a script, and where the call of the script
raises, by a GET and a SET, between which other requests run. In memory the
function runs without an `await`, so that nothing comes between.
-/

namespace Plaidify.SessionStore

open Links (Backend)
open Principals (HttpError)

/-! ## The requests -/

/-- The claims of a launch token that are used. -/
structure LaunchPayload where
  jti : Option String
  allowedOrigin : Option String
  allowedOrigins : List String
  /-- `int(payload["sub"])`, where the token has one; the outer `none` where it raises. -/
  userId : Option (Option Int)
deriving Repr, DecidableEq

/-- What `decode_link_launch_token` raises. -/
inductive TokenError where
  | expired
  | invalid
deriving Repr, DecidableEq

/-- A request to `exchange_link_bootstrap`, with what its token is decoded to. -/
structure Exchange where
  launchToken : Except TokenError LaunchPayload
  requestOrigin : Option String

/-- `text.rstrip("/")`. -/
def rstripSlash (text : String) : String :=
  String.ofList (text.toList.reverse.dropWhile (· == '/')).reverse

/-- The origins that may redeem the token. -/
def LaunchPayload.allowedSet (payload : LaunchPayload) : List String :=
  ((payload.allowedOrigins ++ payload.allowedOrigin.toList).filter (· ≠ "")).map rstripSlash

/-- `exchange_link_bootstrap` up to the consumption: the launch id. -/
def redeem (request : Exchange) : Except HttpError String :=
  match request.launchToken with
  | .error .expired => .error ⟨410, "Link bootstrap token has expired."⟩
  | .error .invalid => .error ⟨400, "Invalid link bootstrap token."⟩
  | .ok payload =>
      if payload.allowedSet ≠ [] ∧
          ∀ origin ∈ request.requestOrigin, rstripSlash origin ∉ payload.allowedSet then
        .error ⟨403, "This origin is not allowed to redeem the hosted-link bootstrap token."⟩
      else
        match payload.jti.filter (· ≠ "") with
        | none => .error ⟨410, "Link bootstrap token has expired or has already been used."⟩
        | some launchId => .ok launchId

/-- What `exchange_link_bootstrap` goes on with after the consumption. -/
def subject (request : Exchange) : Except HttpError (Option Int) :=
  match request.launchToken with
  | .ok { userId := some userId, .. } => .ok userId
  | _ => .error ⟨400, "Invalid link bootstrap token subject."⟩

/-! ## The store and its operations -/

structure Launches where
  backend : Backend
  now : Nat
  redis : Keyspace String Bootstrap
  memory : Table BootstrapEntry BootstrapEntry.launchId
  /-- History variable: the ids that `uuid.uuid4` has given. -/
  issued : List String
  /-- History variable: the launch ids for which `consume_link_launch_bootstrap`
  has returned `True`, call by call. -/
  consumed : List String
  /-- History variable: the launch ids for which a link session was created. -/
  sessions : List String

inductive Operation where
  | wait (time : Nat)
  | bootstrap (launchId : String) (expiresIn : Int)
  /-- Consumption in memory, or by the script. -/
  | exchange (request : Exchange)
  /-- The script is carried out, and its call raises. -/
  | scriptLost (request : Exchange)
  /-- The GET and the SET after a call of the script that raised, with the answer
  to the TTL between them. Where the SET is lost, it raises although it is
  carried out. -/
  | fallback (request : Exchange) (ttl : Int) (lost : Bool)

/-- Whether the operation, as things are, comes to a write. -/
def readLaunch (o : Operation) (s : Launches) : Option Unit :=
  match o with
  | .wait _ => some ()
  | .bootstrap launchId _ => if launchId ∈ s.issued then none else some ()
  | .exchange request => (redeem request).toOption.map fun _ => ()
  | .scriptLost request =>
      if s.backend = .redis then (redeem request).toOption.map fun _ => () else none
  | .fallback request _ _ =>
      if s.backend = .redis then
        match redeem request with
        | .error _ => none
        | .ok launchId =>
            if s.redis.get s.now launchId = some .issued then some () else none
      else none

/-- `consume_link_launch_bootstrap` has returned `True` to a request. -/
def grantLaunch (s : Launches) (request : Exchange) (launchId : String) : Launches :=
  { s with
    consumed := s.consumed ++ [launchId]
    sessions :=
      match subject request with
      | .error _ => s.sessions
      | .ok _ => s.sessions ++ [launchId] }

/-- `consume_link_launch_bootstrap` in one step. -/
def consumeLaunch (s : Launches) (launchId : String) : Bool × Launches :=
  match s.backend with
  | .redis =>
      let answer := Redis.consumeScript s.redis s.now launchId
      (answer.1, { s with redis := answer.2 })
  | .memory =>
      let answer := Memory.consumeLinkLaunchBootstrap s.memory s.now launchId
      (answer.1, { s with memory := answer.2 })

/-- What the operation does to the store. -/
def writeLaunch (o : Operation) (_ : Unit) (s : Launches) : Option Launches :=
  match o with
  | .wait time => some { s with now := s.now + time }
  | .bootstrap launchId expiresIn =>
      some <|
        match s.backend with
        | .redis =>
            { s with
              issued := s.issued ++ [launchId]
              redis := Redis.storeLinkLaunchBootstrap s.redis s.now launchId expiresIn }
        | .memory =>
            { s with
              issued := s.issued ++ [launchId]
              memory := Memory.storeLinkLaunchBootstrap s.memory s.now launchId expiresIn }
  | .exchange request =>
      match redeem request with
      | .error _ => none
      | .ok launchId =>
          let answer := consumeLaunch s launchId
          some (if answer.1 then grantLaunch answer.2 request launchId else answer.2)
  | .scriptLost request =>
      match redeem request with
      | .error _ => none
      | .ok launchId => some (consumeLaunch s launchId).2
  | .fallback request ttl lost =>
      match redeem request with
      | .error _ => none
      | .ok launchId =>
          -- the document of the GET is put back with another status
          let written := { s with redis := s.redis.set launchId .consumed (after s.now (max ttl 60)) }
          some (if lost then written else grantLaunch written request launchId)

def launches : Interleaving.Operations Operation Launches Unit := ⟨readLaunch, writeLaunch⟩

/-! ## Steps -/

abbrev LaunchState := Interleaving.State Nat Operation Launches Unit

/-- Only a fallback has two steps. -/
inductive LaunchLabel where
  | wait (time : Nat)
  | bootstrap (launchId : String) (expiresIn : Int)
  | exchange (request : Exchange)
  | scriptLost (request : Exchange)
  | get (party : Nat) (request : Exchange) (ttl : Int) (lost : Bool)
  | set (party : Nat)

def LaunchLabel.toStep : LaunchLabel → Interleaving.Label Nat Operation
  | wait time => .atomic (.wait time)
  | bootstrap launchId expiresIn => .atomic (.bootstrap launchId expiresIn)
  | exchange request => .atomic (.exchange request)
  | scriptLost request => .atomic (.scriptLost request)
  | get party request ttl lost => .read party (.fallback request ttl lost)
  | set party => .write party

def launchStep (s : LaunchState) (l : LaunchLabel) : Option LaunchState :=
  launches.step s l.toStep

/-- Before the first launch token. -/
def startLaunches (backend : Backend) (now : Nat) : LaunchState :=
  Interleaving.start ⟨backend, now, Keyspace.empty, Table.empty, [], [], []⟩

/-! ## What is to hold -/

/-- No launch id is consumed twice. -/
def ConsumedOnce (s : LaunchState) : Prop :=
  ∀ launchId, s.store.consumed.count launchId ≤ 1

/-- The launch id for which the operation, where it writes, returns `True`. -/
def Operation.returnsFor : Operation → Option String
  | .fallback request _ false => (redeem request).toOption
  | _ => none

/-- A SET of a fallback comes before any other request has consumed its launch id. -/
def Unconsumed (s : LaunchState) : LaunchLabel → Prop
  | .set party => ∀ a ∈ (s.next party).map Prod.fst, ∀ launchId ∈ a.operation.returnsFor,
      launchId ∉ s.store.consumed
  | _ => True

instance decidableUnconsumed (s : LaunchState) : (l : LaunchLabel) → Decidable (Unconsumed s l)
  | .wait _ => isTrue trivial
  | .bootstrap _ _ => isTrue trivial
  | .exchange _ => isTrue trivial
  | .scriptLost _ => isTrue trivial
  | .get _ _ _ _ => isTrue trivial
  | .set party =>
      inferInstanceAs (Decidable (∀ a ∈ (s.next party).map Prod.fst,
        ∀ launchId ∈ a.operation.returnsFor, launchId ∉ s.store.consumed))

end Plaidify.SessionStore
