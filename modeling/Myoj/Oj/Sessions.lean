import Myoj.Oj.Mutations
import Myoj.Oj.Privilege
import Myoj.Oj.Snowflake
import Myoj.Oj.Watch

/-!
# Sessions — the tokens the server has handed out

A login takes an id from the generator, files the user's number under its text in Redis and puts the text
into the answer; Redis forgets a token when its time is over.  Every other request that looks at tokens
only reads them.

* `Sessions`, `Backend.onSessions` — the generator and the token store, beside any backend; a call of
  Redis may fail as `base` has it fail;
* `Event`, `History`, `step` — requests and expirations, and the logins that were answered;
* `Safe` — no token twice, and nothing in the store but what was handed out;
* `run_sessions` — it holds in every state that is reached, and what is stored stays until it expires.
-/

namespace Myoj
namespace Oj

open Effect
open Http (HttpRequest HttpResponse)
open UserList (tokenUser)

/-- `uuid_token` and `redis_token`.  The generator is gone once a call of it does not come back. -/
structure Sessions where
  generator : Option Snowflake
  tokens : Bytes → Option Bytes

namespace Sessions

/-- `uuid_token.init(1, 1); uuid_token.nextid()`. -/
def nextToken (clock : Clock) (fuel : Nat) (g : Snowflake) : Option (Int64 × Snowflake) :=
  match g.init 1 1 with
  | .ok g => g.nextid clock fuel
  | .error _ => none

def setToken (key : Bytes) (value : Option Bytes) (t : Sessions) : Sessions :=
  { t with tokens := fun key' => if key' = key then value else t.tokens key' }

@[simp] theorem generator_setToken (key : Bytes) (value : Option Bytes) (t : Sessions) :
    (t.setToken key value).generator = t.generator := rfl

end Sessions

variable {S : Type}

/-- The token store is a map where Redis does not fail; ids come from the generator. -/
def Backend.onSessions (clock : Clock) (fuel : Nat) (base : Backend S) : Backend (S × Sessions) :=
  { base.watched ⟨fun _ t => t, fun _ t => t, fun _ t => t, fun _ _ t => t⟩ with
    get := fun db key s =>
      match onBase (base.get db key) s with
      | .ok found s => .ok (if db = .redis_token then s.2.tokens key else found) s
      | .error e s => .error e s
    setex := fun db key ttl value s =>
      match onBase (base.setex db key ttl value) s with
      | .ok _ s => .ok () (if db = .redis_token then (s.1, s.2.setToken key (some value)) else s)
      | .error e s => .error e s
    nextid := fun s =>
      match s.2.generator.bind (Sessions.nextToken clock fuel) with
      | some (id, g) => (id, s.1, { s.2 with generator := some g })
      | none => (0, s.1, { s.2 with generator := none }) }

/-! ## Runs -/

namespace Sessions

/-- An answer to a login: the token, and the number of the user as it is filed. -/
structure Login where
  token : Bytes
  userid : Bytes
  deriving DecidableEq, Repr

/-- What the answer to a login that succeeded names. -/
def Login.of (resjson : Json) : Option Login :=
  if (resjson.member "Result").eqString "Success" then
    match (resjson.member "Info").member "Token", ((resjson.member "Info").member "id").getUInt64 with
    | .string token, .ok id => some ⟨token, Numerals.to_string id.toNat⟩
    | _, _ => none
  else none

structure History (S : Type) where
  server : Server (S × Sessions)
  logins : List Login
  /-- An exception has left `onRequest`. -/
  ended : Bool

inductive Event where
  | request (req : HttpRequest)
  /-- Redis drops a key. -/
  | expire (key : Bytes)

section

variable (b : Backend (S × Sessions))

/-- The logins a request adds. -/
def loginsOf (req : HttpRequest) (server : Server (S × Sessions)) : List Login :=
  if handlerOf req = some .doLoginUser then
    match doLoginUser b req server with
    | .ok resjson _ => (Login.of resjson).toList
    | .error _ _ => []
  else []

def step (history : History S) : Event → History S
  | .request req =>
      if history.ended then history
      else
        { server := final (onRequest b req (.new false)) history.server
          logins := history.logins ++ loginsOf b req history.server
          ended := match onRequest b req (.new false) history.server with
            | .ok _ _ => false
            | .error _ _ => true }
  | .expire key =>
      { history with server :=
          { history.server with outside :=
            (history.server.outside.1, history.server.outside.2.setToken key none) } }

/-- The state before the first request. -/
def start (server : Server S) (start_millsecond : Int64) : History S where
  server := server.watching ⟨some (.new start_millsecond), fun _ => none⟩
  logins := []
  ended := false

end

/-! ## Requests that are no logins -/

section others

variable {clock : Clock} {fuel : Nat} {base : Backend S}

/-- Neither the generator nor the store differs. -/
def Same (server server' : Server (S × Sessions)) : Prop := watch server' = watch server

instance reflSame : Std.Refl (Same (S := S)) where
  refl _ := rfl

instance transSame : IsTrans (Server (S × Sessions)) Same where
  trans _ _ _ h h' := h'.trans h

theorem same_get (db : RedisDb) (key : Bytes) :
    Within Same (call ((base.onSessions clock fuel).get db key)) := by
  intro server
  have hkeeps := keeps_call (T := Sessions) (base.get db key) server
  rw [final_call] at hkeeps ⊢
  simp only [final, watch, Same, Backend.onSessions, onBase] at hkeeps ⊢
  cases base.get db key server.outside.1 <;> rfl

instance readsSame : Reads (base.onSessions clock fuel) (Same (S := S)) where
  get := same_get
  queryByUserName _ := keeps_call _
  queryByUserId _ := keeps_call _
  queryNickName _ := keeps_call _
  aggregate _ _ := keeps_call _
  aggregateSized _ _ := keeps_call _
  aggregateCount _ _ := keeps_call _
  find _ _ := keeps_call _
  count_documents _ _ := keeps_call _
  distinct _ _ := keeps_call _

/-- Only a new id and a token that is filed show. -/
theorem same_of_ne {m : Mutation} (hnextid : m ≠ .nextid) (hsetex : m ≠ .setex .redis_token) :
    m.Within (base.onSessions clock fuel) (Same (S := S)) := by
  cases m with
  | setex db =>
      cases db with
      | redis_token =>
          exact absurd rfl hsetex
      | redis_cache =>
          intro key ttl value server
          rw [final_call]
          simp only [final, watch, Same, Backend.onSessions, onBase]
          cases base.setex .redis_cache key ttl value server.outside.1 <;> rfl
  | nextid =>
      exact absurd rfl hnextid
  | del db =>
      exact fun _ => keeps_call _
  | insertUser =>
      exact fun _ => keeps_call _
  | updateProblemStatus =>
      exact fun _ _ _ => keeps_call _
  | insertStatusRecord =>
      intro record server
      rw [final_call]
      simp only [final, watch, Same, Backend.onSessions, Backend.watched, onBoth]
      cases base.insertStatusRecord record server.outside.1 <;> simp
  | updateProblem =>
      intro id column server
      rw [final_call]
      simp only [final, watch, Same, Backend.onSessions, Backend.watched, onBoth]
      cases base.updateProblem id column server.outside.1 <;> simp
  | update_one coll =>
      exact fun _ _ => keeps_call _
  | insert_one coll =>
      exact fun _ _ => keeps_call _
  | delete_one coll =>
      exact fun _ => keeps_call _
  | delete_many coll =>
      exact fun _ => keeps_call _
  | judging =>
      exact keeps_affect _
  | makeProblemData =>
      exact fun _ _ => rfl
  | writeProblemFile =>
      exact fun _ _ _ => keeps_affect _
  | removeProblemData =>
      exact fun _ _ => rfl
  | setAuthority =>
      exact fun _ _ _ => rfl
  | nextProblemId =>
      exact fun _ => rfl
  | nextArticleId =>
      exact fun _ => rfl
  | nextCommentId =>
      exact fun _ => rfl
  | problemtags =>
      exact fun _ _ => rfl

/-- Only a login takes an id or files a token. -/
theorem ne_of_mem_mutations {handler : Handler} (h : handler ≠ .doLoginUser) {m : Mutation}
    (hm : m ∈ handler.mutations) : m ≠ .nextid ∧ m ≠ .setex .redis_token := by
  revert m
  cases handler with
  | doLoginUser =>
      exact absurd rfl h
  | _ =>
      decide

variable (clock fuel base) in
/-- A request that is no login leaves the generator and the store as they are. -/
theorem same_onRequest {req : HttpRequest} (h : handlerOf req ≠ some .doLoginUser) (resp : HttpResponse) :
    Within Same (onRequest (base.onSessions clock fuel) req resp) := by
  refine onRequest_within req resp fun m hm => ?_
  unfold mutationsOf at hm
  cases hroute : handlerOf req with
  | none =>
      rw [hroute] at hm
      cases hm
  | some handler =>
      rw [hroute] at hm h
      have hne : handler ≠ .doLoginUser := fun heq => h (congrArg some heq)
      obtain ⟨hnextid, hsetex⟩ := ne_of_mem_mutations hne hm
      exact same_of_ne hnextid hsetex

end others

/-! ## Logins -/

section logins

variable {clock : Clock} {fuel : Nat} {base : Backend S}

/-- Redis takes every token. -/
def Files (base : Backend S) : Prop :=
  ∀ key ttl value s, ∃ s', base.setex .redis_token key ttl value s = .ok () s'

/-- What a login does to the generator and the store, with the answers it adds; `files` says that no
token is lost on the way to the store. -/
inductive Turn (clock : Clock) (fuel : Nat) (files : Prop) (t : Sessions) : List Login → Sessions → Prop where
  | refused : Turn clock fuel files t [] t
  /-- The generator does not come back. -/
  | hung (logins : List Login) (t' : Sessions) (h : t'.generator = none) :
      Turn clock fuel files t logins t'
  | answered (g g' : Snowflake) (id : Int64) (userid : Bytes) (t' : Sessions)
      (hg : t.generator = some g) (hnext : nextToken clock fuel g = some (id, g'))
      (hgenerator : t'.generator = some g')
      (htokens : (¬ files ∧ t'.tokens = t.tokens) ∨
        t'.tokens = (t.setToken (Numerals.to_string id.toInt) (some userid)).tokens) :
      Turn clock fuel files t [⟨Numerals.to_string id.toInt, userid⟩] t'

/-- The answer to a login, once there is an id for it. -/
def answer (user : User) (id : Int64) : Json :=
  (MysqlDataBase.loggedIn user).put "Info"
    ((MysqlDataBase.userInfo user).put "Token" (.string (Numerals.to_string id.toInt)))

/-- The number of a user, as it is filed. -/
def filed (user : User) : Bytes := Numerals.to_string (Int64.ofInt user.id.toInt).toUInt64.toNat

theorem of_answer (user : User) (id : Int64) :
    Login.of (answer user id) = some ⟨Numerals.to_string id.toInt, filed user⟩ := rfl

/-- The second half of `LoginUser`. -/
theorem LoginUser_apply {b : Backend S} {json : Json} {server server' : Server S} {user : User}
    (h : MysqlDataBase.LoginUser b json server = .ok (MysqlDataBase.loggedIn user) server') :
    UserList.LoginUser b json server =
      (do
        let id ← affect b.nextid
        let _ ← ReDB.SetToken b (Numerals.to_string id.toInt) (filed user)
        return answer user id : Action S Json) server' := by
  rw [UserList.LoginUser, bind_of_ok h]
  rfl

theorem LoginUser_of_refused {b : Backend S} {json j : Json} {server server' : Server S}
    (h : MysqlDataBase.LoginUser b json server = .ok j server') (hrefused : Refused j) :
    UserList.LoginUser b json server = .ok j server' := by
  obtain ⟨hans, r, hr, hne⟩ := hrefused
  rw [UserList.LoginUser, bind_of_ok h, Json.index_of_indexable hans.indexable,
    bind_of_ok liftM_ok_apply, eqString_of_member "Success" hr, decide_eq_false hne]
  rfl

/-- Taking an id and filing it, when the generator comes back. -/
theorem token_turn {g g' : Snowflake} {id : Int64} {server : Server (S × Sessions)} (user : User)
    (hg : (watch server).generator = some g) (hnext : nextToken clock fuel g = some (id, g')) :
    ∃ server', (do
        let id ← affect (base.onSessions clock fuel).nextid
        let _ ← ReDB.SetToken (base.onSessions clock fuel) (Numerals.to_string id.toInt) (filed user)
        return answer user id : Action (S × Sessions) Json) server = .ok (answer user id) server' ∧
      Turn clock fuel (Files base) (watch server) [⟨Numerals.to_string id.toInt, filed user⟩] (watch server') := by
  have haffect : affect (base.onSessions clock fuel).nextid server =
      .ok id { server with outside :=
        (server.outside.1, { server.outside.2 with generator := some g' }) } := by
    have hbind : (server.outside.2.generator.bind (nextToken clock fuel)) = some (id, g') := by
      have hbound : server.outside.2.generator = some g := hg
      rw [hbound, Option.bind_some, hnext]
    simp only [affect, Backend.onSessions, hbind]
  rw [bind_of_ok haffect]
  simp only [ReDB.SetToken, attempt, bind_apply, call, Backend.onSessions, onBase]
  cases hfile : base.setex .redis_token (Numerals.to_string id.toInt) 604800 (filed user)
      server.outside.1 with
  | ok a s' =>
      exact ⟨_, rfl, .answered g g' id _ _ hg hnext rfl (.inr rfl)⟩
  | error e s' =>
      have hfails : ¬ Files base := fun h => by
        obtain ⟨s'', hok⟩ := h (Numerals.to_string id.toInt) 604800 (filed user) server.outside.1
        cases hfile.symm.trans hok
      exact ⟨_, rfl, .answered g g' id _ _ hg hnext rfl (.inl ⟨hfails, rfl⟩)⟩

variable (base) in
/-- Without an id there is no generator any more. -/
theorem token_hung {server : Server (S × Sessions)} (user : User)
    (hnext : (watch server).generator.bind (nextToken clock fuel) = none) :
    ∃ resjson server', (do
        let id ← affect (base.onSessions clock fuel).nextid
        let _ ← ReDB.SetToken (base.onSessions clock fuel) (Numerals.to_string id.toInt) (filed user)
        return answer user id : Action (S × Sessions) Json) server = .ok resjson server' ∧
      (watch server').generator = none := by
  have haffect : affect (base.onSessions clock fuel).nextid server =
      .ok 0 { server with outside :=
        (server.outside.1, { server.outside.2 with generator := none }) } := by
    have hbind : server.outside.2.generator.bind (nextToken clock fuel) = none := hnext
    simp only [affect, Backend.onSessions, hbind]
  rw [bind_of_ok haffect]
  simp only [ReDB.SetToken, attempt, bind_apply, call, Backend.onSessions, onBase]
  cases base.setex .redis_token (Numerals.to_string (0 : Int64).toInt) 604800 (filed user)
      server.outside.1 with
  | ok a s' =>
      exact ⟨_, _, rfl, rfl⟩
  | error e s' =>
      exact ⟨_, _, rfl, rfl⟩

/-- What a login request does. -/
theorem turn_doLoginUser (req : HttpRequest) (server : Server (S × Sessions))
    (hroute : handlerOf req = some .doLoginUser) :
    Turn clock fuel (Files base) (watch server) (loginsOf (base.onSessions clock fuel) req server)
      (watch (final (doLoginUser (base.onSessions clock fuel) req) server)) := by
  rw [loginsOf, if_pos hroute, final, doLoginUser]
  cases hparse : (base.onSessions clock fuel).parseJson req.body_ with
  | error e =>
      exact .refused
  | ok json =>
      rw [bind_of_ok liftM_ok_apply]
      unfold Control.LoginUser
      obtain ⟨j, server', hlogin, hj⟩ := returns_LoginUser (b := base.onSessions clock fuel) json server
      have hsame : watch server' = watch server := by
        have hwithin := (Stays.LoginUserInMysql (R := Same) (b := base.onSessions clock fuel) json).within
        have hfinal := hwithin server
        rwa [final_of_ok hlogin] at hfinal
      cases hfound : loginUser (base.onSessions clock fuel) json server.outside with
      | none =>
          rw [hfound] at hj
          rw [LoginUser_of_refused hlogin hj]
          obtain ⟨-, r, hr, hne⟩ := hj
          simp only [Login.of, eqString_of_member "Success" hr, decide_eq_false hne, hsame]
          exact .refused
      | some user =>
          rw [hfound] at hj
          subst hj
          rw [LoginUser_apply hlogin, ← hsame]
          cases hnext : (watch server').generator.bind (nextToken clock fuel) with
          | none =>
              obtain ⟨resjson, server'', hok, hgone⟩ := token_hung base user hnext
              rw [hok]
              exact .hung _ _ hgone
          | some next =>
              obtain ⟨g, hg, hnext⟩ := Option.bind_eq_some_iff.1 hnext
              obtain ⟨server'', hok, hturn⟩ := token_turn user hg hnext
              rw [hok]
              simp only [of_answer]
              exact hturn

end logins

/-! ## Runs -/

section runs

variable {clock : Clock} {fuel : Nat} {base : Backend S} {start_millsecond : Int64}

variable (clock fuel base) in
/-- What one event does to the generator, the store and the logins. -/
theorem step_cases (history : History S) (e : Event) :
    (∃ logins, (step (base.onSessions clock fuel) history e).logins = history.logins ++ logins ∧
      Turn clock fuel (Files base) (watch history.server) logins (watch (step (base.onSessions clock fuel) history e).server)) ∨
    (∃ key, e = .expire key ∧ (step (base.onSessions clock fuel) history e).logins = history.logins ∧
      watch (step (base.onSessions clock fuel) history e).server =
        (watch history.server).setToken key none) := by
  cases e with
  | expire key =>
      exact .inr ⟨key, rfl, rfl, rfl⟩
  | request req =>
      refine .inl ?_
      by_cases hended : history.ended = true
      · rw [step, if_pos hended]
        exact ⟨[], (List.append_nil _).symm, .refused⟩
      · rw [step, if_neg hended]
        refine ⟨_, rfl, ?_⟩
        by_cases hlogin : handlerOf req = some .doLoginUser
        · rw [final_onRequest hlogin]
          exact turn_doLoginUser req history.server hlogin
        · have hsame := same_onRequest clock fuel base hlogin (.new false) history.server
          rw [loginsOf, if_neg hlogin, hsame]
          exact .refused

/-- No token was handed out twice, and nothing is stored but what was handed out. -/
structure Safe (history : History S) : Prop where
  nodup : (history.logins.map Login.token).Nodup
  stored : ∀ key userid, (watch history.server).tokens key = some userid → ⟨key, userid⟩ ∈ history.logins

/-- The tokens are ids of the generator, and none of them is ahead of it. -/
structure Inv (clock : Clock) (start_millsecond : Int64) (history : History S) (g : Snowflake) : Prop where
  safe : Safe history
  issued : ∀ login ∈ history.logins, ∃ id : Int64, login.token = Numerals.to_string id.toInt ∧
    ¬ Snowflake.Earlier g.stamp (Snowflake.stampOf id)
  start : g.start_millsecond_ = start_millsecond
  generator : g = .new start_millsecond ∨ Snowflake.Inv clock g

/-- The invariant, as far as the clock was in the epoch and the generator has come back. -/
def Kept (clock : Clock) (start_millsecond : Int64) (history : History S) : Prop :=
  ∀ g, (watch history.server).generator = some g →
    (∀ n < g.reads, Snowflake.InEpoch ((Snowflake.new start_millsecond).instant clock n)) →
      Inv clock start_millsecond history g

/-- The text of an id is the text of no other id. -/
theorem token_injective {id id' : Int64}
    (h : Numerals.to_string id.toInt = Numerals.to_string id'.toInt) : id = id' := by
  have hread := (stoll_to_string id).symm.trans ((congrArg stoll h).trans (stoll_to_string id'))
  exact Except.ok.inj hread

/-- The next token is later than everything the generator has handed out. -/
theorem nextToken_spec {g g' : Snowflake} {id : Int64}
    (h : nextToken clock fuel g = some (id, g')) :
    g.reads < g'.reads ∧ g'.start_millsecond_ = g.start_millsecond_ ∧
      (Snowflake.Inv clock g → (∀ n < g'.reads, Snowflake.InEpoch (g.instant clock n)) →
        Snowflake.Inv clock g' ∧ Snowflake.Earlier g.stamp g'.stamp ∧ Snowflake.stampOf id = g'.stamp) := by
  unfold nextToken at h
  split at h
  · rename_i g₁ hinit
    obtain ⟨hreads, hstart⟩ := Snowflake.reads_nextid h
    obtain ⟨-, -, hg₁⟩ := Snowflake.init_eq_ok hinit
    have hreads₁ : g₁.reads = g.reads := by rw [hg₁]
    have hstart₁ : g₁.start_millsecond_ = g.start_millsecond_ := by rw [hg₁]
    refine ⟨hreads₁ ▸ hreads, hstart.trans hstart₁, fun hinv hepoch => ?_⟩
    obtain ⟨hinv₁, hstamp₁, -, -⟩ := Snowflake.inv_init hinv hinit
    obtain ⟨hinv', hearlier, hstamp, -⟩ := Snowflake.nextid_spec hinv₁ h
      (by simpa only [Snowflake.instant, hstart₁] using hepoch)
    exact ⟨hinv', hstamp₁ ▸ hearlier, hstamp⟩
  · cases h

/-- It is no token that was handed out. -/
theorem token_new {history : History S} {g g' : Snowflake} {id : Int64}
    (hinv : Inv clock start_millsecond history g) (hearlier : Snowflake.Earlier g.stamp g'.stamp)
    (hstamp : Snowflake.stampOf id = g'.stamp) :
    ∀ login ∈ history.logins, login.token ≠ Numerals.to_string id.toInt := by
  intro login hmem heq
  obtain ⟨id', htoken, hnot⟩ := hinv.issued login hmem
  rw [token_injective (htoken.symm.trans heq), hstamp] at hnot
  exact hnot hearlier

/-- What the generator guarantees for the next token. -/
theorem nextToken_of_inv {history : History S} {g g' : Snowflake} {id : Int64}
    (hinv : Inv clock start_millsecond history g) (hnext : nextToken clock fuel g = some (id, g'))
    (hepoch : ∀ n < g'.reads, Snowflake.InEpoch ((Snowflake.new start_millsecond).instant clock n)) :
    Snowflake.Inv clock g' ∧ Snowflake.Earlier g.stamp g'.stamp ∧ Snowflake.stampOf id = g'.stamp := by
  obtain ⟨hreads, -, hspec⟩ := nextToken_spec hnext
  have hgenerator : Snowflake.Inv clock g := by
    rcases hinv.generator with rfl | hgenerator
    · exact Snowflake.inv_new (hepoch 0 (by omega))
    · exact hgenerator
  exact hspec hgenerator (by simpa only [Snowflake.instant, hinv.start, Snowflake.new] using hepoch)

/-- A login with a new token. -/
theorem inv_answered {history history' : History S} {g g' : Snowflake} {id : Int64} {userid : Bytes}
    (hinv : Inv clock start_millsecond history g) (hnext : nextToken clock fuel g = some (id, g'))
    (hepoch : ∀ n < g'.reads, Snowflake.InEpoch ((Snowflake.new start_millsecond).instant clock n))
    (hlogins : history'.logins = history.logins ++ [⟨Numerals.to_string id.toInt, userid⟩])
    (htokens : (watch history'.server).tokens = (watch history.server).tokens ∨
      (watch history'.server).tokens =
        ((watch history.server).setToken (Numerals.to_string id.toInt) (some userid)).tokens) :
    Inv clock start_millsecond history' g' := by
  obtain ⟨-, hstart, -⟩ := nextToken_spec hnext
  obtain ⟨hgenerator', hearlier, hstamp⟩ := nextToken_of_inv hinv hnext hepoch
  have hnew := token_new hinv hearlier hstamp
  refine ⟨⟨?_, ?_⟩, ?_, hstart.trans hinv.start, .inr hgenerator'⟩
  · rw [hlogins, List.map_append]
    refine List.nodup_append.2 ⟨hinv.safe.nodup, List.nodup_singleton _, ?_⟩
    intro token htoken token' htoken'
    obtain ⟨login, hmem, rfl⟩ := List.mem_map.1 htoken
    rw [List.map_singleton, List.mem_singleton] at htoken'
    rw [htoken']
    exact hnew login hmem
  · intro key userid' hkey
    rw [hlogins]
    rcases htokens with htokens | htokens
    · rw [htokens] at hkey
      exact List.mem_append_left _ (hinv.safe.stored key userid' hkey)
    · rw [htokens] at hkey
      simp only [setToken] at hkey
      split at hkey
      · rename_i heq
        cases hkey
        rw [heq]
        exact List.mem_append_right _ List.mem_cons_self
      · exact List.mem_append_left _ (hinv.safe.stored key userid' hkey)
  · intro login hmem
    rw [hlogins] at hmem
    rcases List.mem_append.1 hmem with hmem | hmem
    · obtain ⟨id', htoken, hnot⟩ := hinv.issued login hmem
      exact ⟨id', htoken, fun hlater => hnot (hearlier.trans hlater)⟩
    · rw [List.mem_singleton] at hmem
      refine ⟨id, by rw [hmem], ?_⟩
      rw [hstamp]
      unfold Snowflake.Earlier
      omega

theorem kept_step {history : History S} (hkept : Kept clock start_millsecond history) (e : Event) :
    Kept clock start_millsecond (step (base.onSessions clock fuel) history e) := by
  intro g' hg' hepoch
  rcases step_cases clock fuel base history e with
    ⟨logins, hlogins, hturn⟩ | ⟨key, -, hlogins, hwatch⟩
  · generalize hsessions : watch (step (base.onSessions clock fuel) history e).server = t' at *
    cases hturn with
    | refused =>
        have hold := hkept g' hg' hepoch
        rw [List.append_nil] at hlogins
        exact ⟨⟨by rw [hlogins]; exact hold.safe.nodup, by rw [hlogins, hsessions]; exact hold.safe.stored⟩,
          by rw [hlogins]; exact hold.issued, hold.start, hold.generator⟩
    | hung _ _ hnone =>
        rw [hnone] at hg'
        cases hg'
    | answered g g₁ id userid _ hg hnext hgenerator htokens =>
        rw [hgenerator] at hg'
        cases hg'
        obtain ⟨hreads, -, -⟩ := nextToken_spec hnext
        have hold := hkept g hg fun n hn => hepoch n (by omega)
        exact inv_answered hold hnext hepoch hlogins (by rw [hsessions]; exact htokens.imp_left And.right)
  · rw [hwatch] at hg'
    have hold := hkept g' hg' hepoch
    refine ⟨⟨by rw [hlogins]; exact hold.safe.nodup, ?_⟩, by rw [hlogins]; exact hold.issued, hold.start,
      hold.generator⟩
    intro key' userid hkey
    rw [hlogins]
    rw [hwatch] at hkey
    simp only [setToken] at hkey
    split at hkey
    · cases hkey
    · exact hold.safe.stored key' userid hkey

/-- The generator of a state had been there before. -/
theorem generator_step {history : History S} {e : Event} {g' : Snowflake}
    (hg' : (watch (step (base.onSessions clock fuel) history e).server).generator = some g') :
    ∃ g, (watch history.server).generator = some g ∧ g.reads ≤ g'.reads := by
  rcases step_cases clock fuel base history e with
    ⟨logins, -, hturn⟩ | ⟨key, -, -, hwatch⟩
  · generalize watch (step (base.onSessions clock fuel) history e).server = t' at *
    cases hturn with
    | refused =>
        exact ⟨g', hg', Nat.le_refl _⟩
    | hung _ _ hnone =>
        rw [hnone] at hg'
        cases hg'
    | answered g g₁ id userid _ hg hnext hgenerator htokens =>
        rw [hgenerator] at hg'
        cases hg'
        exact ⟨g, hg, Nat.le_of_lt (nextToken_spec hnext).1⟩
  · rw [hwatch] at hg'
    exact ⟨g', hg', Nat.le_refl _⟩

theorem generator_run {history : History S} {es : List Event} {g' : Snowflake}
    (hg' : (watch (es.foldl (step (base.onSessions clock fuel)) history).server).generator = some g') :
    ∃ g, (watch history.server).generator = some g ∧ g.reads ≤ g'.reads := by
  induction es generalizing history with
  | nil =>
      exact ⟨g', hg', Nat.le_refl _⟩
  | cons e es ih =>
      obtain ⟨g₁, hg₁, hreads₁⟩ := ih hg'
      obtain ⟨g, hg, hreads⟩ := generator_step hg₁
      exact ⟨g, hg, hreads.trans hreads₁⟩

theorem kept_start (server : Server S) : Kept clock start_millsecond (start server start_millsecond) := by
  intro g hg _
  cases hg
  exact ⟨⟨.nil, fun _ _ h => by cases h⟩, fun _ h => absurd h List.not_mem_nil, rfl, .inl rfl⟩

/-- The invariant in every state that is reached. -/
theorem kept_run (server : Server S) (es : List Event) :
    Kept clock start_millsecond
      (es.foldl (step (base.onSessions clock fuel)) (start server start_millsecond)) := by
  have hstep : ∀ (history : History S) (e : Event), Kept clock start_millsecond history →
      Kept clock start_millsecond (step (base.onSessions clock fuel) history e) :=
    fun _ e h => kept_step h e
  exact Runs.invariant_run hstep (kept_start server) es

/-- What is stored stays stored, unless it expires. -/
theorem stored_step {history : History S} {e : Event} {g' : Snowflake} {key userid : Bytes}
    (hkept : Kept clock start_millsecond history)
    (hg' : (watch (step (base.onSessions clock fuel) history e).server).generator = some g')
    (hepoch : ∀ n < g'.reads, Snowflake.InEpoch ((Snowflake.new start_millsecond).instant clock n))
    (hkey : (watch history.server).tokens key = some userid) (he : e ≠ .expire key) :
    (watch (step (base.onSessions clock fuel) history e).server).tokens key = some userid := by
  rcases step_cases clock fuel base history e with
    ⟨logins, -, hturn⟩ | ⟨key', rfl, -, hwatch⟩
  · generalize watch (step (base.onSessions clock fuel) history e).server = t' at *
    cases hturn with
    | refused =>
        exact hkey
    | hung _ _ hnone =>
        rw [hnone] at hg'
        cases hg'
    | answered g g₁ id userid' _ hg hnext hgenerator htokens =>
        rw [hgenerator] at hg'
        cases hg'
        have hreads := (nextToken_spec hnext).1
        have hold := hkept g hg fun n hn => hepoch n (by omega)
        obtain ⟨-, hearlier, hstamp⟩ := nextToken_of_inv hold hnext hepoch
        have hne : key ≠ Numerals.to_string id.toInt :=
          token_new hold hearlier hstamp _ (hold.safe.stored key userid hkey)
        rcases htokens with ⟨-, htokens⟩ | htokens
        · rw [htokens]
          exact hkey
        · rw [htokens]
          exact (if_neg hne).trans hkey
  · have hne : key ≠ key' := fun heq => he (congrArg Event.expire heq.symm)
    rw [hwatch]
    exact (if_neg hne).trans hkey

theorem stored_run {history : History S} {es : List Event} {g' : Snowflake} {key userid : Bytes}
    (hkept : Kept clock start_millsecond history)
    (hg' : (watch (es.foldl (step (base.onSessions clock fuel)) history).server).generator = some g')
    (hepoch : ∀ n < g'.reads, Snowflake.InEpoch ((Snowflake.new start_millsecond).instant clock n))
    (hkey : (watch history.server).tokens key = some userid) (hes : .expire key ∉ es) :
    (watch (es.foldl (step (base.onSessions clock fuel)) history).server).tokens key = some userid := by
  induction es generalizing history with
  | nil =>
      exact hkey
  | cons e es ih =>
      rw [List.mem_cons, not_or] at hes
      rw [List.foldl_cons] at hg' ⊢
      obtain ⟨g₁, hg₁, hreads₁⟩ := generator_run hg'
      have hnext := stored_step hkept hg₁ (fun n hn => hepoch n (by omega)) hkey (Ne.symm hes.1)
      exact ih (kept_step hkept e) hg' hnext hes.2

/-- A login that is answered is filed, when Redis takes every token. -/
theorem filed_step {history : History S} {e : Event} {g' : Snowflake} {login : Login} (hfiles : Files base)
    (hg' : (watch (step (base.onSessions clock fuel) history e).server).generator = some g')
    (hmem : login ∈ (step (base.onSessions clock fuel) history e).logins) (hnew : login ∉ history.logins) :
    (watch (step (base.onSessions clock fuel) history e).server).tokens login.token = some login.userid := by
  rcases step_cases clock fuel base history e with
    ⟨logins, hlogins, hturn⟩ | ⟨key, rfl, hlogins, -⟩
  · rw [hlogins] at hmem
    have hadded := (List.mem_append.1 hmem).resolve_left hnew
    generalize watch (step (base.onSessions clock fuel) history e).server = t' at *
    cases hturn with
    | refused =>
        exact absurd hadded List.not_mem_nil
    | hung _ _ hnone =>
        rw [hnone] at hg'
        cases hg'
    | answered g g₁ id userid _ hg hnext hgenerator htokens =>
        rw [List.mem_singleton] at hadded
        rcases htokens with ⟨hlost, -⟩ | htokens
        · exact absurd hfiles hlost
        · rw [htokens, hadded]
          exact if_pos rfl
  · rw [hlogins] at hmem
    exact absurd hmem hnew

/-- Whom a token names is whom it was handed to, or nobody. -/
theorem tokenUser_of_safe {history : History S} (h : Safe history) (token : Bytes) :
    tokenUser (base.onSessions clock fuel) token history.server = bytes "0" ∨
      ⟨token, tokenUser (base.onSessions clock fuel) token history.server⟩ ∈ history.logins := by
  simp only [tokenUser, Backend.onSessions, onBase]
  cases base.get .redis_token token history.server.outside.1 with
  | error e s' =>
      exact .inl rfl
  | ok found s' =>
      cases hstored : history.server.outside.2.tokens token with
      | none =>
          refine .inl ?_
          simp only [if_true, hstored]
      | some userid =>
          refine .inr ?_
          simp only [if_true, hstored]
          exact h.stored token userid hstored

variable (clock fuel base start_millsecond) in
/-- The state that events lead to. -/
def reached (server : Server S) (es : List Event) : History S :=
  es.foldl (step (base.onSessions clock fuel)) (start server start_millsecond)

/-- **Sessions.**  Whatever requests are made and whatever Redis drops or fails to do: no token is handed
out twice, the store holds nothing but what logins were answered with, what it holds it keeps until it
expires, and so a token names the user it was handed to or nobody; where Redis takes every token, an
answered login is in the store. -/
theorem sessions_run (clock : Clock) (fuel : Nat) (base : Backend S) (server : Server S)
    (start_millsecond : Int64) (es : List Event) (g : Snowflake)
    (hg : (watch (reached clock fuel base start_millsecond server es).server).generator = some g)
    (hepoch : ∀ n < g.reads, Snowflake.InEpoch ((Snowflake.new start_millsecond).instant clock n)) :
    Safe (reached clock fuel base start_millsecond server es) ∧
      (∀ es₁ es₂ key userid, es = es₁ ++ es₂ →
        (watch (reached clock fuel base start_millsecond server es₁).server).tokens key = some userid →
          Event.expire key ∉ es₂ →
            (watch (reached clock fuel base start_millsecond server es).server).tokens key = some userid) ∧
      (∀ token, tokenUser (base.onSessions clock fuel) token
          (reached clock fuel base start_millsecond server es).server = bytes "0" ∨
        ⟨token, tokenUser (base.onSessions clock fuel) token
          (reached clock fuel base start_millsecond server es).server⟩ ∈
            (reached clock fuel base start_millsecond server es).logins) ∧
      (Files base → ∀ es₁ e es₂, es = es₁ ++ e :: es₂ →
        ∀ login ∈ (reached clock fuel base start_millsecond server (es₁ ++ [e])).logins,
          login ∉ (reached clock fuel base start_millsecond server es₁).logins →
            (watch (reached clock fuel base start_millsecond server (es₁ ++ [e])).server).tokens
              login.token = some login.userid) := by
  have hsafe : Safe (reached clock fuel base start_millsecond server es) :=
    (kept_run server es g hg hepoch).safe
  refine ⟨hsafe, ?_, tokenUser_of_safe hsafe, ?_⟩
  · rintro es₁ es₂ key userid rfl hkey hes₂
    unfold reached at hg hkey ⊢
    rw [List.foldl_append] at hg ⊢
    exact stored_run (kept_run server es₁) hg hepoch hkey hes₂
  · rintro hfiles es₁ e es₂ rfl login hmem hnew
    unfold reached at hg hmem hnew ⊢
    rw [List.foldl_append, List.foldl_cons] at hg
    rw [List.foldl_append, List.foldl_cons, List.foldl_nil] at hmem ⊢
    obtain ⟨g₁, hg₁, -⟩ := generator_run hg
    exact filed_step hfiles hg₁ hmem hnew

end runs

/-- One user, who is in every body. -/
def knowing : Backend Unit :=
  { Backend.idle with
    parse := fun _ => some ⟨.object [("username", .string (bytes "amy")),
      ("password", .string (bytes "pw"))], by decide⟩
    queryByUserName := fun name => pure (some ⟨7, name, name, bytes "pw", [], [], 0, 0⟩) }

/-- Two logins of one user; the first token expires. -/
def twoLogins : List Event :=
  [.request postLogin, .request postLogin, .expire (bytes "4329472")]

theorem sessions_run_two :
    Safe (reached Snowflake.slowClock 0 knowing 1534832906276 freshServer twoLogins) ∧
      (reached Snowflake.slowClock 0 knowing 1534832906276 freshServer twoLogins).logins =
        [⟨bytes "4329472", bytes "7"⟩, ⟨bytes "4329473", bytes "7"⟩] :=
  ⟨(sessions_run Snowflake.slowClock 0 knowing freshServer 1534832906276 twoLogins
    ⟨1534832906276, 1534832906276, 1, 1, 1, 2⟩ (by decide +kernel) (by decide +kernel)).1,
    by decide +kernel⟩

end Sessions
end Oj
end Myoj
