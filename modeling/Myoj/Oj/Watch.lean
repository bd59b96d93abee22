import Myoj.Oj.Backend

/-!
# Watch — looking at some of the calls

A backend whose state carries something more, a log or the contents of a table, that four of the calls
change; all calls do and answer what they do on `base`.

* `Watch` — what the four calls do to it;
* `Backend.watched` — the backend;
* `Keeps` rules — the other calls leave it alone.
-/

namespace Myoj
namespace Oj

open Effect

variable {S T α : Type}

structure Watch (T : Type) where
  makeProblemData : Bytes → T → T
  removeProblemData : Bytes → T → T
  /-- A row was inserted. -/
  insertStatusRecord : StatusRecord → T → T
  /-- The statement of `ProblemListModel::update` was executed. -/
  updateProblem : Int64 → String → T → T

/-- A call on `base`. -/
def onBase (op : EStateM Exception S α) : EStateM Exception (S × T) α := fun s =>
  match op s.1 with
  | .ok a s' => .ok a (s', s.2)
  | .error e s' => .error e (s', s.2)

/-- A call that cannot fail. -/
def onBase' (f : S → α × S) (s : S × T) : α × S × T := ((f s.1).1, (f s.1).2, s.2)

/-- A call that changes what is watched when its answer is as asked for. -/
def onBoth (op : EStateM Exception S α) (succeeded : α → Bool) (change : T → T) :
    EStateM Exception (S × T) α := fun s =>
  match op s.1 with
  | .ok a s' => .ok a (s', if succeeded a then change s.2 else s.2)
  | .error e s' => .error e (s', s.2)

def Backend.watched (base : Backend S) (w : Watch T) : Backend (S × T) where
  parse := base.parse
  dumpText := base.dumpText
  get := fun db key => onBase (base.get db key)
  setex := fun db key ttl value => onBase (base.setex db key ttl value)
  del := fun db key => onBase (base.del db key)
  queryByUserName := fun name => onBase (base.queryByUserName name)
  queryByUserId := fun id => onBase (base.queryByUserId id)
  queryNickName := fun name => onBase (base.queryNickName name)
  insertUser := fun user => onBase (base.insertUser user)
  updateProblemStatus := fun name ac n => onBase (base.updateProblemStatus name ac n)
  insertStatusRecord := fun record =>
    onBoth (base.insertStatusRecord record) Option.isSome (w.insertStatusRecord record)
  updateProblem := fun id column => onBoth (base.updateProblem id column) (fun updated => updated) (w.updateProblem id column)
  aggregate := fun coll pipe => onBase (base.aggregate coll pipe)
  aggregateSized := fun coll pipe => onBase (base.aggregateSized coll pipe)
  aggregateCount := fun coll pipe => onBase (base.aggregateCount coll pipe)
  find := fun coll filter => onBase (base.find coll filter)
  count_documents := fun coll filter => onBase (base.count_documents coll filter)
  update_one := fun coll id update => onBase (base.update_one coll id update)
  insert_one := fun coll id members => onBase (base.insert_one coll id members)
  delete_one := fun coll id => onBase (base.delete_one coll id)
  delete_many := fun coll filter => onBase (base.delete_many coll filter)
  distinct := fun coll field => onBase (base.distinct coll field)
  nextid := onBase' base.nextid
  GetTime := fun s => base.GetTime s.1
  judging := onBase' base.judging
  makeProblemData := fun problemid s =>
    ((), (base.makeProblemData problemid s.1).2, w.makeProblemData problemid s.2)
  writeProblemFile := fun problemid name text => onBase' (base.writeProblemFile problemid name text)
  readProblemFile := fun problemid name s => base.readProblemFile problemid name s.1
  removeProblemData := fun problemid s =>
    ((), (base.removeProblemData problemid s.1).2, w.removeProblemData problemid s.2)

/-- What is watched. -/
def watch (server : Server (S × T)) : T := server.outside.2

/-- A server, with what is watched. -/
def Server.watching (server : Server S) (t : T) : Server (S × T) :=
  { server with outside := (server.outside, t) }

theorem keeps_call (op : EStateM Exception S α) : Keeps (watch (S := S) (T := T)) (call (onBase op)) := by
  intro s
  simp only [final, call, onBase, watch]
  cases op s.outside.1 <;> rfl

theorem keeps_affect (f : S → α × S) : Keeps (watch (S := S) (T := T)) (affect (onBase' f)) :=
  fun _ => rfl

end Oj
end Myoj
