import Myoj.Oj.Backend

/-!
# RedisDataBase — tokens and caches

Every function of `ReDB` catches what Redis throws and answers something harmless instead.
-/

namespace Myoj
namespace Oj
namespace ReDB

open Effect

variable {S : Type} (b : Backend S)

def SetToken (token userid : Bytes) : Action S Bool :=
  attempt
    (do
      call (b.setex .redis_token token 604800 userid)
      pure true)
    fun _ => pure false

/-- `"0"` for an unknown token and when Redis cannot be asked. -/
def GetUserIdByToken (token : Bytes) : Action S Bytes :=
  attempt
    (do
      match ← call (b.get .redis_token token) with
      | some userid => pure userid
      | none => pure (bytes "0"))
    fun _ => pure (bytes "0")

/-- `AddProblemCache` and `AddStatusRecordCache`. -/
def addCache (kind : String) (key info : Bytes) : Action S Bool :=
  attempt
    (do
      call (b.setex .redis_cache (bytes kind ++ key) 86400 info)
      pure true)
    fun _ => pure false

/-- `GetProblemCache` and `GetStatusRecordCache`: empty when there is nothing. -/
def getCache (kind : String) (key : Bytes) : Action S Bytes :=
  attempt
    (do
      match ← call (b.get .redis_cache (bytes kind ++ key)) with
      | some info => pure info
      | none => pure [])
    fun _ => pure []

def AddProblemCache (problemid probleminfo : Bytes) : Action S Bool :=
  addCache b "Cache:Problem:" problemid probleminfo

def GetProblemCache (problemid : Bytes) : Action S Bytes :=
  getCache b "Cache:Problem:" problemid

def DeleteProblemCache (problemid : Bytes) : Action S Bool :=
  attempt (call (b.del .redis_cache (bytes "Cache:Problem:" ++ problemid))) fun _ => pure false

def AddStatusRecordCache (statusrecordid statusrecordinfo : Bytes) : Action S Bool :=
  addCache b "Cache:StatusRecord:" statusrecordid statusrecordinfo

def GetStatusRecordCache (statusrecordid : Bytes) : Action S Bytes :=
  getCache b "Cache:StatusRecord:" statusrecordid

/-! ## What a cache answers -/

/-- The text under a key; empty when there is none, or when Redis cannot be asked. -/
def cached (kind : String) (key : Bytes) (outside : S) : Bytes :=
  match b.get .redis_cache (bytes kind ++ key) outside with
  | .ok (some info) _ => info
  | _ => []

/-- The state after the cache was asked. -/
def afterCache (kind : String) (key : Bytes) (server : Server S) : Server S :=
  match b.get .redis_cache (bytes kind ++ key) server.outside with
  | .ok _ outside => { server with outside }
  | .error _ outside => { server with outside }

theorem getCache_apply (kind : String) (key : Bytes) (server : Server S) :
    getCache b kind key server = .ok (cached b kind key server.outside) (afterCache b kind key server) := by
  simp only [getCache, attempt, bind_apply, call, cached, afterCache]
  cases b.get .redis_cache (bytes kind ++ key) server.outside with
  | ok found outside =>
      cases found <;> rfl
  | error e outside =>
      rfl

end ReDB
end Oj
end Myoj
