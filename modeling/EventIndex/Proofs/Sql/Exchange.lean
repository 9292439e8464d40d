import EventIndex.Sql.Database

/-! # Exchanges that succeed

What comes of an exchange with the database when each of its statements brings rows: the answer that
is read from the rows, and the state of the server after the last statement. -/

namespace EventIndex.Sql

variable {δ : Type} [Server δ]

/-- In these states of the server the statement brings rows of a kind, and leads to such a state. -/
def Brings (I : δ → Prop) (st : Statement) (P : List Row → Prop) : Prop :=
  ∀ s, I s → ∃ rows, (Server.execute st s).1 = .rows rows ∧ P rows ∧ I (Server.execute st s).2

namespace Database

variable {db : Database δ} {st : Statement} {rows : List Row}

/-- The database after a statement. -/
def after (db : Database δ) (st : Statement) : Database δ :=
  ⟨(Server.execute st db.server).2, db.link⟩

omit [Server δ] in
theorem run_bind_of_ok {α β : Type} {x : Exchange δ α} {f : α → Exchange δ β} {db' : Database δ}
    {a : α} (h : x.run.run db = (.ok a, db')) : (x >>= f).run.run db = (f a).run.run db' := by
  rw [ExceptT.run_bind, StateT.run_bind, h]
  rfl

theorem run_send (h : (Server.execute st db.server).1 = .rows rows) :
    (send st).run.run db = (.ok rows, db.after st) := by
  have hget : (get : Exchange δ (Database δ)).run.run db = (.ok db, db) := rfl
  obtain ⟨server, hexecute⟩ : ∃ server, Server.execute st db.server = (.rows rows, server) :=
    ⟨_, Prod.ext h rfl⟩
  rw [send, run_bind_of_ok hget, after]
  simp only [hexecute]
  rfl

theorem run_orRollback_of_ok {α : Type} {step : Exchange δ α} {db' : Database δ} {a : α}
    (h : step.run.run db = (.ok a, db')) : (orRollback step).run.run db = (.ok a, db') := by
  have hstep : StateT.run step db = (.ok a, db') := h
  simp only [orRollback, tryCatch, tryCatchThe, MonadExceptOf.tryCatch, ExceptT.tryCatch,
    ExceptT.run_mk, StateT.run_bind, hstep]
  rfl

theorem start_of_rows (contract : ContractId) (hlink : db.link = .present)
    (h : (Server.execute (.plain "BEGIN") db.server).1 = .rows rows) :
    Store.start contract db = (.ok ⟨contract, false⟩, db.after (.plain "BEGIN")) := by
  have hacquire : (acquire (δ := δ)).run.run db = (.ok (), db) := by
    obtain ⟨server, link⟩ := db
    obtain rfl : link = .present := hlink
    rfl
  have hstart : (start (δ := δ) contract).run.run db =
      (.ok ⟨contract, false⟩, db.after (.plain "BEGIN")) := by
    rw [start, run_bind_of_ok hacquire, run_bind_of_ok (run_send h)]
    rfl
  change (((start contract).run.run db).1.mapError Error.toStorage,
    ((start contract).run.run db).2) = _
  rw [hstart]
  rfl

theorem request_of_rows {r : Request} {tx : Transaction} (htx : tx.broken = false)
    (hst : r.statements tx.contract = [st]) (h : (Server.execute st db.server).1 = .rows rows) :
    request r tx db =
      ((r.readAnswer tx.contract [rows]).mapError RowError.toStorage, tx, db.after st) := by
  have hmap : (([st].mapM (send (δ := δ))).run).run db = (.ok [rows], db.after st) := by
    rw [List.mapM_cons, run_bind_of_ok (run_send h)]
    rfl
  rw [request, if_neg (by simp [htx]), hst, hmap]

theorem commit_of_rows {tx : Transaction} (htx : tx.broken = false)
    (h : (Server.execute (.plain "COMMIT") db.server).1 = .rows rows) :
    Store.commit tx db = (.ok (), db.after (.plain "COMMIT")) := by
  have hsend : (discard (send (δ := δ) (.plain "COMMIT"))).run.run db =
      (.ok (), db.after (.plain "COMMIT")) := by
    change ((send (.plain "COMMIT") >>= fun _ => pure ()).run.run db) = _
    rw [run_bind_of_ok (run_send h)]
    rfl
  have hcommit : (commit (δ := δ)).run.run db = (.ok (), db.after (.plain "COMMIT")) := by
    rw [commit, run_orRollback_of_ok hsend]
  change (if tx.broken then _ else ((commit.run.run db).1.mapError Error.toStorage,
    (commit.run.run db).2)) = _
  rw [if_neg (by simp [htx]), hcommit]
  rfl

end Database

end EventIndex.Sql
