import VaultSync.Async.Interleaving
import VaultSync.Coordinator.Cloudflare

/-! What the Cloudflare coordinator stores and acknowledges. -/

namespace VaultSync.NamespaceDurableObject

open Async SQLiteCoordinator List

variable {B : Type} {db db' : D1 B} {n : ℕ} {ns : String} {m : EncryptedMutation B}
  {ms : List (EncryptedMutation B)}

/-! ## A batch alone -/

def NoFault (_ : D1Statement B) (e : Connection String) (_ : D1 B) : Prop := e.fault = none

def Fits (db : D1 B) (ms : List (EncryptedMutation B)) : Prop :=
  (ms.map EncryptedMutation.id).Nodup ∧ (∀ m ∈ ms, m.id ∉ db.ids) ∧
    db.table.lastSequence + ms.length < 2 ^ 63

lemma ids_append (hid : m.id ∉ db.ids) (hmax : db.table.lastSequence + 1 < 2 ^ 63) :
    (db.append n ns m hid hmax).ids = db.ids ++ [m.id] := by
  unfold D1.ids D1.append SQLiteCoordinator.append
  rw [map_append]
  exact congrArg _ rfl

variable (db n ns m ms)

lemma fits_cons_iff :
    Fits db (m :: ms) ↔ ∃ (hid : m.id ∉ db.ids) (hmax : db.table.lastSequence + 1 < 2 ^ 63),
      Fits (db.append n ns m hid hmax) ms := by
  unfold Fits
  simp only [ids_append, map_cons, nodup_cons, mem_map, mem_append,
    mem_cons, not_mem_nil, or_false, length_cons, forall_eq_or_imp]
  have hlast : ∀ hid hmax, (db.append n ns m hid hmax).table.lastSequence =
      db.table.lastSequence + 1 := fun _ _ => rfl
  simp only [hlast]
  constructor
  · rintro ⟨⟨hnot, hnodup⟩, ⟨hid, hids⟩, hroom⟩
    refine ⟨hid, by omega, hnodup, fun m' hm' hor => ?_, by omega⟩
    rcases hor with h | h
    · exact hids m' hm' h
    · exact hnot ⟨m', hm', h⟩
  · rintro ⟨hid, -, hnodup, hids, hroom⟩
    have hrest : ∀ m' ∈ ms, m'.id ∉ db.ids := fun m' hm' h => hids m' hm' (.inl h)
    refine ⟨⟨?_, hnodup⟩, ⟨hid, hrest⟩, by omega⟩
    rintro ⟨m', hm', h⟩
    exact hids m' hm' (.inr h)

lemma insert_cases :
    (∃ hid hmax, db.insert n ns m = (.ok (), db.append n ns m hid hmax)) ∨
      ¬ (m.id ∉ db.ids ∧ db.table.lastSequence + 1 < 2 ^ 63) ∧
        ∃ msg, db.insert n ns m = (.error msg, db) := by
  unfold D1.insert
  split_ifs with hid hmax
  · exact .inr ⟨fun h => h.1 hid, _, rfl⟩
  · exact .inl ⟨hid, hmax, rfl⟩
  · exact .inr ⟨fun h => hmax h.2, _, rfl⟩

variable {db n ns m ms}

lemma wp_insertAll (ms : List (EncryptedMutation B)) (db : D1 B) :
    wp (D1.machine n NoFault) (fun r db' => ((∃ seqs, r = .ok seqs) ↔ Fits db ms) ∧
      (∀ id ∈ db.ids, id ∈ db'.ids) ∧ (Fits db ms → ∀ m ∈ ms, m.id ∈ db'.ids))
      (insertAll ns ms) db := by
  induction ms generalizing db with
  | nil =>
    have hfits : Fits db [] := ⟨.nil, nofun, db.table.lastSequence_lt⟩
    exact ⟨⟨fun _ => hfits, fun _ => ⟨[], rfl⟩⟩, fun _ h => h, nofun⟩
  | cons m ms ih =>
    intro e (he : e.fault = none)
    change wp _ _ (Prog.ofReply id (e.reply db (db.insert n ns m)).1 >>= _)
      (e.reply db (db.insert n ns m)).2
    rw [Connection.reply_of_none he]
    rcases insert_cases db n ns m with ⟨hid, hmax, hins⟩ | ⟨hnew, msg, hins⟩
    · rw [hins]
      intro e' (he' : e'.fault = none)
      change wp _ _ ((Prog.ofReply id (e'.reply _ _).1 >>= _) >>= _) (e'.reply _ _).2
      rw [Connection.reply_of_none he']
      have hcons := fits_cons_iff db n ns m ms
      have hstored : m.id ∈ (db.append n ns m hid hmax).ids := by
        rw [ids_append]
        exact mem_append_right _ (mem_singleton_self _)
      have hkept : ∀ id ∈ db.ids, id ∈ (db.append n ns m hid hmax).ids := by
        intro id h
        rw [ids_append]
        exact mem_append_left _ h
      refine (ih (db.append n ns m hid hmax)).bind ?_ ?_
      · rintro seqs db' ⟨hok, hids, hall⟩
        have hfits : Fits db (m :: ms) := hcons.2 ⟨hid, hmax, hok.1 ⟨seqs, rfl⟩⟩
        refine ⟨⟨fun _ => hfits, fun _ => ⟨_, rfl⟩⟩, fun id h => hids id (hkept id h), fun _ m' hm' => ?_⟩
        rcases mem_cons.1 hm' with rfl | hm'
        · exact hids _ hstored
        · exact hall (hok.1 ⟨seqs, rfl⟩) m' hm'
      · rintro err db' ⟨hok, hids, -⟩
        have hnot : ¬ Fits db (m :: ms) := by
          intro h
          obtain ⟨_, _, hrest⟩ := hcons.1 h
          obtain ⟨seqs, hseqs⟩ := hok.2 hrest
          cases hseqs
        exact ⟨⟨nofun, fun h => absurd h hnot⟩, fun id h => hids id (hkept id h),
          fun h => absurd h hnot⟩
    · rw [hins]
      have hnot : ¬ Fits db (m :: ms) := by
        intro h
        obtain ⟨hid, hmax, -⟩ := (fits_cons_iff db n ns m ms).1 h
        exact hnew ⟨hid, hmax⟩
      exact ⟨⟨nofun, fun h => absurd h hnot⟩, fun _ h => h, fun h => absurd h hnot⟩

def batch : PushRequest B → Option (String × List (EncryptedMutation B))
  | .http ns mutations => some (ns, mutations)
  | .msgPush (some a) (some p) =>
    if a.authenticated then some (pushNamespace a p, p.mutations) else none
  | .msgPush _ _ => none

variable {req : PushRequest B} {k : ℕ}

lemma serve_of_batch (h : batch req = some (ns, ms)) :
    ∃ f : List ℕ → PushResponse B, (∀ seqs, (f seqs).sequences = some seqs) ∧
      serve req = insertAll ns ms >>= fun seqs => return f seqs := by
  match req with
  | .http ns' mutations =>
    cases h
    exact ⟨.json, fun _ => rfl, rfl⟩
  | .msgPush (some a) (some p) =>
    dsimp only [batch] at h
    split_ifs at h with ha
    cases h
    exact ⟨_, fun _ => rfl, if_pos ha⟩
  | .msgPush none _ => cases h
  | .msgPush (some a) none => cases h

lemma serve_of_no_batch (h : batch req = none) : serve req = return .dropped := by
  match req with
  | .http ns' mutations => cases h
  | .msgPush (some a) (some p) =>
    dsimp only [batch] at h
    split_ifs at h with ha
    exact if_neg ha
  | .msgPush none _ => rfl
  | .msgPush (some a) none => rfl

def PushedOnce (ms : List (EncryptedMutation B)) (r : Except String (PushResponse B))
    (db : D1 B) : Prop :=
  (∃ resp seqs, r = .ok resp ∧ resp.sequences = some seqs) ∧ ∀ m ∈ ms, db.ids.count m.id = 1

lemma wp_serve_iff (n : ℕ) (db : D1 B) (h : batch req = some (ns, ms)) :
    wp (D1.machine n NoFault) (PushedOnce ms) (serve req) db ↔ Fits db ms := by
  obtain ⟨f, hf, hserve⟩ := serve_of_batch h
  apply wp_iff_of_ends fun _ _ => rfl
  rw [hserve]
  refine (wp_insertAll ms db).bind ?_ ?_
  · rintro seqs db' ⟨hok, -, hall⟩
    have hfits : Fits db ms := hok.1 ⟨seqs, rfl⟩
    have hcount : ∀ m ∈ ms, db'.ids.count m.id = 1 := fun m hm =>
      count_eq_one_of_mem db'.unique (hall hfits m hm)
    exact ⟨fun _ => hfits, fun _ => ⟨⟨f seqs, seqs, rfl, hf seqs⟩, hcount⟩⟩
  · rintro err db' ⟨hok, -, -⟩
    constructor
    · rintro ⟨⟨_, _, herr, _⟩, -⟩
      cases herr
    · intro hfits
      obtain ⟨seqs, hseqs⟩ := hok.2 hfits
      cases hseqs

/-! ## Requests beside each other -/

def requests (allow : ℕ → D1Statement B → Connection String → D1 B → Prop) :
    System ⟨D1Statement B, D1Statement.Ans⟩ Unit String (Connection String) (D1 B)
      (ℕ × PushRequest B) (PushResponse B) where
  machine c := D1.machine c.1 (allow c.1)
  prog c := serve c.2
  mayStart c ds _ := c.1 ∉ ds.map Prod.fst
  env _ _ := False

def OwnRowid (n : ℕ) (op : D1Statement B) (_ : Connection String) (db : D1 B) : Prop :=
  match op with
  | .insert _ _ => True
  | .selectLastInsertRowid => db.insertedBy = some n

def Stored (db : D1 B) (ns : String) (m : EncryptedMutation B) (seq : ℕ) : Prop :=
  row ns seq m ∈ db.table.rows

/-- No row goes, and the last row inserted is one of request `n` only if it was before. -/
structure Beside (n : ℕ) (db db' : D1 B) : Prop where
  rows : ∀ r ∈ db.table.rows, r ∈ db'.table.rows
  rowid : db'.insertedBy = some n →
    db.insertedBy = some n ∧ db'.lastInsertRowid = db.lastInsertRowid

lemma Beside.refl (n : ℕ) (db : D1 B) : Beside n db db := ⟨fun _ h => h, fun h => ⟨h, rfl⟩⟩

lemma Beside.trans {db'' : D1 B} (h : Beside n db db') (h' : Beside n db' db'') :
    Beside n db db'' where
  rows r hr := h'.rows r (h.rows r hr)
  rowid hby := by
    obtain ⟨hby', heq'⟩ := h'.rowid hby
    obtain ⟨hby'', heq⟩ := h.rowid hby'
    exact ⟨hby'', heq'.trans heq⟩

lemma beside_insert (h : k ≠ n) : Beside k db (db.insert n ns m).2 := by
  rcases insert_cases db n ns m with ⟨hid, hmax, hins⟩ | ⟨-, msg, hins⟩
  · rw [hins]
    refine ⟨fun r hr => mem_append_left _ hr, fun hby => ?_⟩
    exact absurd (Option.some.inj hby).symm h
  · rw [hins]
    exact .refl k db

def numbered (B : Type) (n : ℕ) : Protocol (D1 B) where
  inv _ := True
  rely := Beside n
  guar db db' := (∀ r ∈ db.table.rows, r ∈ db'.table.rows) ∧ ∀ k ≠ n, Beside k db db'
  rely_refl := .refl n
  rely_trans := .trans
  guar_refl db := ⟨fun _ h => h, fun k _ => .refl k db⟩

lemma guar_of_beside (h : ∀ k ≠ n, Beside k db db') : (numbered B n).guar db db' :=
  ⟨(h (n + 1) (Nat.succ_ne_self n)).rows, h⟩

lemma stored_of_insert_ok (h : (db.insert n ns m).1 = .ok ()) :
    Stored (db.insert n ns m).2 ns m (db.insert n ns m).2.lastInsertRowid := by
  rcases insert_cases db n ns m with ⟨hid, hmax, hins⟩ | ⟨-, msg, hins⟩
  · rw [hins]
    exact mem_append_right _ (mem_singleton_self _)
  · rw [hins] at h
    cases h

lemma safe_insertAll (ms : List (EncryptedMutation B)) (db : D1 B) :
    Safe (D1.machine n (OwnRowid n)) (numbered B n)
      (fun r db' => ∀ seqs, r = .ok seqs → List.Forall₂ (Stored db' ns) ms seqs)
      (insertAll ns ms) db := by
  induction ms generalizing db with
  | nil =>
    rintro db' - - _ ⟨⟩
    exact .nil
  | cons m ms ih =>
    intro db1 _ _ e _
    have hguar : ∀ k ≠ n, Beside k db1 (e.reply db1 (db1.insert n ns m)).2 := fun k hk =>
      Connection.reply_holds (.refl k db1) (beside_insert hk)
    refine ⟨trivial, guar_of_beside hguar, ?_⟩
    refine safe_reply (fun _ _ => nofun) fun _ hok => ?_
    have hrow := stored_of_insert_ok hok
    intro db2 _ hrely e' (hby : db2.insertedBy = some n)
    have hstored : Stored db2 ns m db2.lastInsertRowid := by
      rw [(hrely.rowid hby).2]
      exact hrely.rows _ hrow
    have hguar' : ∀ k ≠ n, Beside k db2 (e'.reply db2 (.ok (some db2.lastInsertRowid), db2)).2 :=
      fun k _ => Connection.reply_holds (.refl k db2) (.refl k db2)
    refine ⟨trivial, guar_of_beside hguar', ?_⟩
    change Safe _ _ _ (Prog.ofReply id (e'.reply db2 (.ok (some db2.lastInsertRowid), db2)).1 >>=
      _ >>= _) (e'.reply db2 (.ok (some db2.lastInsertRowid), db2)).2
    rw [Prog.bind_assoc]
    refine safe_reply (fun _ _ => nofun) fun found hfound => ?_
    cases hfound
    have hstable : ∀ db3 db4, (numbered B n).rely db3 db4 ∨ (numbered B n).guar db3 db4 →
        Stored db3 ns m db2.lastInsertRowid → Stored db4 ns m db2.lastInsertRowid := by
      intro db3 db4 hg hs
      rcases hg with hrely' | hguar''
      · exact hrely'.rows _ hs
      · exact hguar''.1 _ hs
    have hrest := (ih db2).frame hstable hstored
    change Safe _ _ _ (insertAll ns ms >>= fun seqs => return db2.lastInsertRowid :: seqs) db2
    refine Safe.bind trivial hrest (fun seqs db3 _ hseqs => ?_) fun err db3 _ _ => nofun
    rintro db4 - hg _ ⟨⟩
    have hkept : ∀ m' seq, Stored db3 ns m' seq → Stored db4 ns m' seq := fun _ _ => hg.rows _
    exact .cons (hkept _ _ hseqs.2) ((hseqs.1 seqs rfl).imp hkept)

def Truthful (req : PushRequest B) (r : Except String (PushResponse B)) (db : D1 B) : Prop :=
  ∀ resp seqs, r = .ok resp → resp.sequences = some seqs →
    ∃ ns ms, batch req = some (ns, ms) ∧ List.Forall₂ (Stored db ns) ms seqs

lemma safe_serve (n : ℕ) (req : PushRequest B) (db : D1 B) :
    Safe (D1.machine n (OwnRowid n)) (numbered B n) (Truthful req) (serve req) db := by
  cases hb : batch req with
  | none =>
    rw [serve_of_no_batch hb]
    rintro db' - - _ seqs ⟨⟩ hseqs
    cases hseqs
  | some b =>
    obtain ⟨ns, ms⟩ := b
    obtain ⟨f, hf, hserve⟩ := serve_of_batch hb
    rw [hserve]
    refine Safe.bind trivial (safe_insertAll ms db) (fun seqs db1 _ hseqs => ?_)
      fun err db1 _ _ _ _ => nofun
    rintro db2 - hg _ seqs' ⟨⟩ heq
    cases (hf seqs).symm.trans heq
    exact ⟨ns, ms, hb, (hseqs seqs rfl).imp fun _ _ => hg.rows _⟩

def acknowledging (B : Type) : System.Proof (requests (B := B) OwnRowid) where
  inv _ := True
  protocol c := numbered B c.1
  post c := Truthful c.2
  together c d := c.1 ≠ d.1
  inv_iff _ _ := Iff.rfl
  env_safe _ _ _ h := h.elim
  guar_rely _ _ _ _ hne _ _ hg := hg.2 _ hne.symm
  start_together c ds _ _ hc d hd := by
    have hne : c.1 ≠ d.1 := fun h => hc (h ▸ mem_map_of_mem hd)
    exact ⟨hne, hne.symm⟩
  safe c _ db _ _ := safe_serve c.1 c.2 db

def mutation (id : String) : EncryptedMutation Unit := ⟨id, "a", "r", "d", "x", (), 0, 0, 1⟩

def two : PushRequest Unit := .http "a" [mutation "m", mutation "m'"]

def runAlone (allow : ℕ → D1Statement Unit → Connection String → D1 Unit → Prop) (n : ℕ)
    (req : PushRequest Unit) (es : List (Connection String)) (db : D1 Unit) :
    Except String (PushResponse Unit) × D1 Unit :=
  run (D1.machine n (allow n)) (serve req) es db

def lostAtSecondRow : List (Connection String) :=
  [default, default, ⟨some "D1_ERROR: Network connection lost.", false⟩]

def one (id : String) : PushRequest Unit := .http "a" [mutation id]

def insertSent (n : ℕ) (req : PushRequest Unit) (db : D1 Unit) :
    D1Fn Unit (PushResponse Unit) × D1 Unit :=
  advance (D1.machine n fun _ _ _ => True) 1 (serve req) db

end VaultSync.NamespaceDurableObject
