import AstroPlant.Pool

/-!
# Database connections held by the API

What every HTTP handler, server RPC handler and media upload does with the
database pool, in the order of its awaits. A connection bound to a local is
released when the local goes out of scope: at the end of the helper that
acquired it, or at the end of the handler. Shadowing does not end a scope.

Almost all handlers ask for permission first, through a helper that acquires
and releases a connection of its own, and only then acquire the connection they
work with. Downloading, deleting and uploading media instead acquire a
connection while they hold one; eight of them together can stop the whole
service.

A handler is a list of operations on the pool, its `ops`. Two facts about them
are checked once for all handlers: none ever acquires a third connection
(`ops_shallow`), and the ones that acquire a second one are those named
(`ops_nests`). What follows about progress is the theorem about pools
(`Pool.progress_of_nesting_lt`), applied to this program; that its bound is sharp
is the run of eight downloads.
-/

namespace AstroPlant

open Pool

/-- `PgPool::new`: at most eight connections, and no timeout for waiting. -/
def poolSize : Nat := 8

/-! ## Helpers -/

/-- A scope that acquires a connection and interacts with it `n` times. -/
def withConn (n : Nat) : List Op := .get :: List.replicate n .query ++ [.drop]

/-- `fut_kit_permission_or_forbidden` and `fut_user_permission_or_forbidden`. -/
def permissionHelper : List Op := withConn 1

/-- `get_models_from_kit_configuration_id` and `get_models_from_peripheral_id`. -/
def modelsHelper : List Op := withConn 1

/-! ## Handlers -/

/-- The source of a cloned configuration. -/
inductive CloneSource where
  | sameKit
  | otherKit

/-- Everything that runs concurrently and may use the pool. -/
inductive Handler where
  | kits
  | kitBySerial
  | resetPassword
  | createKit
  | patchKit
  | deleteKit
  | getMembers
  | addMember
  | getMemberSuggestions
  | patchKitMembership
  | deleteKitMembership
  | archiveAuthorize
  | archive
  | writeZip
  | configurationsByKitSerial
  | createNewConfiguration
  | cloneConfiguration (source : CloneSource)
  | patchConfiguration
  | deleteConfiguration
  | addPeripheralToConfiguration
  | patchPeripheral
  | deletePeripheral
  | kitAggregateMeasurements
  | kitMedia
  | deleteMedia
  | downloadMedia
  | kitRpcVersion
  | kitRpcUptime
  | kitRpcPeripheralCommand
  | me
  | authenticateByCredentials
  | accessTokenFromRefreshToken
  | userByUsername
  | patchUser
  | listKitMemberships
  | createUser
  | peripheralDefinitions
  | userKitPermissions
  | quantityTypes
  | time
  | websocketSubscribe
  | serverRpcVersion
  | serverRpcGetActiveConfiguration
  | serverRpcGetQuantityTypes
  | uploadMedia

namespace Handler

/-- The acquisitions and releases of each handler. -/
def ops : Handler → List Op
  | kits => withConn 1
  | kitBySerial => permissionHelper ++ withConn 1
  | resetPassword => permissionHelper ++ withConn 1
  | createKit => withConn 1
  | patchKit => permissionHelper ++ withConn 1
  | deleteKit => permissionHelper ++ withConn 1
  | getMembers => permissionHelper ++ withConn 2
  | addMember => permissionHelper ++ withConn 1
  | getMemberSuggestions => permissionHelper ++ withConn 1
  | patchKitMembership => withConn 1
  | deleteKitMembership => withConn 1
  | archiveAuthorize => permissionHelper
  | archive => withConn 1
  -- spawned by `archive`; the connection is held while the configurations are
  -- written to the client, the measurements come from another pool
  | writeZip => [.get, .query, .await, .drop, .await]
  | configurationsByKitSerial => permissionHelper ++ withConn 1
  | createNewConfiguration => permissionHelper ++ withConn 1
  | cloneConfiguration .sameKit => permissionHelper ++ modelsHelper ++ withConn 1
  | cloneConfiguration .otherKit =>
      permissionHelper ++ modelsHelper ++ permissionHelper ++ withConn 1
  | patchConfiguration => modelsHelper ++ permissionHelper ++ withConn 1
  | deleteConfiguration => modelsHelper ++ permissionHelper ++ withConn 1
  | addPeripheralToConfiguration => modelsHelper ++ permissionHelper ++ withConn 1
  | patchPeripheral => modelsHelper ++ permissionHelper ++ withConn 1
  | deletePeripheral => modelsHelper ++ permissionHelper ++ withConn 1
  | kitAggregateMeasurements => permissionHelper ++ withConn 1
  | kitMedia => permissionHelper ++ withConn 1
  -- `conn` is kept for the final transaction
  | deleteMedia => [.get, .query] ++ permissionHelper ++ [.query, .drop]
  -- `conn` lives until the end of the function
  | downloadMedia => [.get, .query] ++ permissionHelper ++ [.await, .drop]
  | kitRpcVersion => permissionHelper ++ [.await]
  | kitRpcUptime => permissionHelper ++ [.await]
  | kitRpcPeripheralCommand => permissionHelper ++ [.await]
  | me => withConn 1
  | authenticateByCredentials => withConn 1
  | accessTokenFromRefreshToken => []
  | userByUsername => permissionHelper
  | patchUser => permissionHelper ++ withConn 1
  | listKitMemberships => permissionHelper ++ withConn 1
  | createUser => withConn 1
  | peripheralDefinitions => withConn 1
  | userKitPermissions => withConn 1
  | quantityTypes => withConn 1
  | time => []
  | websocketSubscribe => permissionHelper
  | serverRpcVersion => []
  | serverRpcGetActiveConfiguration => withConn 1
  | serverRpcGetQuantityTypes => withConn 1
  -- the second `conn` shadows the first one, which stays alive
  | uploadMedia => [.get, .query, .await, .get, .query, .drop, .drop]

theorem ops_shallow (h : Handler) : Pool.Task.shallowFrom 0 h.ops = true := by
  cases h with
  | cloneConfiguration source => cases source <;> rfl
  | _ => rfl

/-- The handlers that acquire a connection while they hold one. -/
theorem ops_nests (h : Handler) :
    Pool.Task.nestsFrom 0 h.ops = true ↔
      h = .downloadMedia ∨ h = .deleteMedia ∨ h = .uploadMedia := by
  cases h with
  | cloneConfiguration source => cases source <;> simp <;> decide
  | _ => simp; decide

end Handler

/-! ## Standstill -/

/-- Eight downloads, each up to its check of the permission. -/
def eightDownloads : List (Sched Handler Outcome) :=
  List.replicate 8 (.spawn .downloadMedia)
    ++ (List.range 8).flatMap fun i => [.run i .ok, .run i .ok]

/-- All connections are held, and each holder waits for another one. -/
theorem eight_downloads_stand_still :
    ∃ c, Run.exec (program poolSize Handler.ops).step ⟨(), []⟩ eightDownloads = some c
      ∧ taken c.tasks = poolSize
      ∧ (∀ t ∈ c.tasks, t.held = 1 ∧ t.todo.head? = some .get)
      ∧ ¬Progress poolSize c := by
  refine ⟨_, rfl, by decide, by decide, fun h => ?_⟩
  exact absurd (h (List.cons_ne_nil _ _)) (by decide)

/-- **When the service can not come to a standstill.** Progress in every
reachable state is guaranteed by a bound on the requests that still have a
nested acquisition to make exactly when the bound is below the size of the
pool. -/
theorem progress_iff_cap_lt_poolSize (cap : Nat) :
    (∀ (ls : List (Sched Handler Outcome)) (c : Conc Unit Pool.Task),
      Run.exec (program poolSize Handler.ops).step ⟨(), []⟩ ls = some c →
      Run.Guarded (program poolSize Handler.ops).step (WithinCap Handler.ops cap) ⟨(), []⟩ ls →
      Progress poolSize c) ↔ cap < poolSize := by
  constructor
  · intro h
    by_cases hcap : cap < poolSize
    · exact hcap
    · have hstuck : ∃ c,
          Run.exec (program poolSize Handler.ops).step ⟨(), []⟩ eightDownloads = some c
          ∧ ¬canStep poolSize c.tasks = true ∧ c.tasks ≠ [] :=
        ⟨_, rfl, by decide, by decide⟩
      have hok : Run.Guarded (program poolSize Handler.ops).step (WithinCap Handler.ops 8)
          ⟨(), []⟩ eightDownloads := by decide
      obtain ⟨c, hrun, hno, hne⟩ := hstuck
      refine absurd (h _ c hrun (hok.mono fun c l hl => ?_) hne) hno
      cases l with
      | spawn r => exact Nat.le_trans hl (Nat.le_of_not_lt hcap)
      | run i e => exact hl
      | fault i => trivial
  · exact fun hcap ls c hrun hok => progress_exec Handler.ops_shallow hcap hrun hok

end AstroPlant
