import NestTemplate.Auth.Runs
import NestTemplate.Common.ReadCommitted

/-!
# Redeeming one code in concurrent requests

`consumeCode` looks the challenge up and destroys it in two statements of one
transaction. The look-up takes no lock, and a `destroy` that finds the row gone
resolves as any other, so that of two requests which have both looked the code
up, both go on to issue tokens.

* `redeem_alone`: without other requests the steps do what `consumeCode` does.
* `redeemed_once`: no code is redeemed twice in a run whose destroys all find
  their row.
* `redeemed_twice`: any code can be redeemed twice.
-/

namespace NestTemplate

open Common ReadCommitted

/-- A call of one of the two methods that consume a code. -/
inductive Redemption where
  | verifyChallenge (code codeVerifier : String)
  | verifyWithClientId (code clientId : String)

namespace Redemption

def code : Redemption → String
  | verifyChallenge code _ | verifyWithClientId code _ => code

/-- What the method makes of the record it has consumed. -/
def result (app : App) (record : ChallengeRecord) :
    Redemption → Except Failure (Option ChallengeRecord)
  | verifyChallenge _ codeVerifier =>
    (AuthorizationChallengeRepoService.compareChallengeAndVerifier app record.row.challenge
      codeVerifier record.row.algorithm).map fun verified => if verified then some record else none
  | verifyWithClientId _ clientId =>
    .ok (if record.client.id.toString = clientId then some record else none)

/-- The call, run on its own. -/
def run (app : App) (env : Env) : Redemption → Db (Option ChallengeRecord)
  | verifyChallenge code codeVerifier =>
    AuthorizationChallengeRepoService.verifyChallenge app env code codeVerifier
  | verifyWithClientId code clientId =>
    AuthorizationChallengeRepoService.verifyWithClientId env code clientId

theorem result_eq_some {app : App} {record r : ChallengeRecord} {call : Redemption}
    (h : call.result app record = .ok (some r)) : r = record := by
  cases call with
  | verifyChallenge code codeVerifier =>
    have h : (AuthorizationChallengeRepoService.compareChallengeAndVerifier app
      record.row.challenge codeVerifier record.row.algorithm).map
        (fun verified => if verified then some record else none) = .ok (some r) := h
    generalize AuthorizationChallengeRepoService.compareChallengeAndVerifier app
      record.row.challenge codeVerifier record.row.algorithm = verified at h
    rcases verified with e | _ | _ <;> cases h
    rfl
  | verifyWithClientId code clientId =>
    have h := Except.ok.inj h
    split at h <;> cases h
    rfl

/-- Both methods are `consumeCode` and a check of the record. -/
theorem run_eq (app : App) (env : Env) (call : Redemption) :
    call.run app env = AuthorizationChallengeRepoService.consumeCode env call.code >>=
      fun record => Action.lift (call.result app record) := by
  cases call with
  | verifyChallenge code codeVerifier =>
    refine congrArg (AuthorizationChallengeRepoService.consumeCode env code >>= ·) ?_
    funext record st
    show (Action.lift (AuthorizationChallengeRepoService.compareChallengeAndVerifier app
      record.row.challenge codeVerifier record.row.algorithm) >>= fun verified =>
        pure (if verified then some record else none)) st = _
    show _ = (Except.map _ (AuthorizationChallengeRepoService.compareChallengeAndVerifier app
      record.row.challenge codeVerifier record.row.algorithm), st)
    cases AuthorizationChallengeRepoService.compareChallengeAndVerifier app record.row.challenge
      codeVerifier record.row.algorithm <;> rfl
  | verifyWithClientId code clientId => rfl

end Redemption

/-- Where a call stands. -/
inductive RedemptionState where
  | called
  | begun
  | found (record : ChallengeRecord)
  /-- `destroy` has resolved; whether its `DELETE` found the row is not looked at. -/
  | destroyed (record : ChallengeRecord) (deleted : Bool)
  | returned (result : Option ChallengeRecord)
  | rejected (e : Failure)

/-- A call and where it stands. -/
structure Redeemer where
  call : Redemption
  state : RedemptionState

/-- The steps of `consumeCode`; any statement may fail. -/
inductive RedemptionStep where
  | begin
  | findByPk
  | destroy
  | commit
  | fail (e : Failure)

namespace Redeemer

/-- `DELETE FROM oauth_authorization_challenges WHERE id = ...`. -/
def deleteRow (id : Uuid) : Write Store Uuid where
  apply st := st.deleteChallenge id
  locks := {id}

def writes (r : Redeemer) : List (Write Store Uuid) :=
  match r.state with
  | .destroyed record true => [deleteRow record.row.id]
  | _ => []

/-- The row is there. -/
def Present (id : Uuid) (st : Store) : Prop := ∃ row ∈ st.challenges, row.id = id

instance (id : Uuid) (st : Store) : Decidable (Present id st) :=
  inferInstanceAs (Decidable (∃ row ∈ st.challenges, row.id = id))

/-- What a call has come to after its transaction. -/
def finish (app : App) (call : Redemption) (record : ChallengeRecord) : Redeemer :=
  ⟨call, match call.result app record with
    | .ok result => .returned result
    | .error e => .rejected e⟩

/-- One step of a call that sees `view`. -/
def move (app : App) : Redeemer → RedemptionStep → Store → Option (Move Store Uuid Redeemer)
  | ⟨call, .called⟩, .begin, _ => some (.look ⟨call, .begun⟩)
  | ⟨call, .begun⟩, .findByPk, view =>
    match AuthorizationChallengeRepoService.findByPk call.code view with
    | .ok record => some (.look ⟨call, .found record⟩)
    | .error e => some (.rollback ⟨call, .rejected e⟩)
  | ⟨call, .found record⟩, .destroy, view =>
    if Present record.row.id view then
      some (.write (deleteRow record.row.id) ⟨call, .destroyed record true⟩)
    else some (.look ⟨call, .destroyed record false⟩)
  | ⟨call, .destroyed record _⟩, .commit, _ => some (.commit (finish app call record))
  | ⟨_, .returned _⟩, .fail _, _ | ⟨_, .rejected _⟩, .fail _, _ => none
  | ⟨call, _⟩, .fail e, _ => some (.rollback ⟨call, .rejected e⟩)
  | _, _, _ => none

/-- The moves there are. -/
inductive Moves (app : App) (call : Redemption) :
    RedemptionState → RedemptionStep → Store → Move Store Uuid Redeemer → Prop
  | begin {view : Store} : Moves app call .called .begin view (.look ⟨call, .begun⟩)
  | found {view : Store} {record : ChallengeRecord} :
      AuthorizationChallengeRepoService.findByPk call.code view = .ok record →
      Moves app call .begun .findByPk view (.look ⟨call, .found record⟩)
  | missing {view : Store} {e : Failure} :
      Moves app call .begun .findByPk view (.rollback ⟨call, .rejected e⟩)
  | deleted {view : Store} {record : ChallengeRecord} : Present record.row.id view →
      Moves app call (.found record) .destroy view
        (.write (deleteRow record.row.id) ⟨call, .destroyed record true⟩)
  | gone {view : Store} {record : ChallengeRecord} : ¬ Present record.row.id view →
      Moves app call (.found record) .destroy view (.look ⟨call, .destroyed record false⟩)
  | commit {view : Store} {record : ChallengeRecord} {deleted : Bool} :
      Moves app call (.destroyed record deleted) .commit view (.commit (finish app call record))
  | fail {view : Store} {state : RedemptionState} {e : Failure} :
      Moves app call state (.fail e) view (.rollback ⟨call, .rejected e⟩)

theorem moves_of_move {app : App} {r : Redeemer} {a : RedemptionStep} {view : Store}
    {m : Move Store Uuid Redeemer} (h : move app r a view = some m) :
    Moves app r.call r.state a view m := by
  unfold move at h
  split at h
  · cases h; exact .begin
  · split at h
    · rename_i hfind; cases h; exact .found hfind
    · cases h; exact .missing
  · split at h
    · rename_i hrow; cases h; exact .deleted hrow
    · rename_i hrow; cases h; exact .gone hrow
  · cases h; exact .commit
  · cases h
  · cases h
  · cases h; exact .fail
  · cases h

theorem mem_writes {r : Redeemer} {w : Write Store Uuid} (h : w ∈ r.writes) :
    ∃ id, w = deleteRow id := by
  unfold writes at h
  split at h
  · exact ⟨_, List.mem_singleton.mp h⟩
  · cases h

theorem finish_ne_destroyed (app : App) (call : Redemption) (record record' : ChallengeRecord)
    (deleted : Bool) : (finish app call record).state ≠ .destroyed record' deleted := by
  unfold finish
  cases call.result app record <;> exact nofun

theorem writes_finish (app : App) (call : Redemption) (record : ChallengeRecord) :
    writes (finish app call record) = [] := by
  unfold finish
  cases call.result app record <;> rfl

theorem finish_of_result {app : App} {call : Redemption} {record : ChallengeRecord}
    {result : Option ChallengeRecord} (h : call.result app record = .ok result) :
    finish app call record = ⟨call, .returned result⟩ := by
  rw [finish, h]

/-- A call as a client of the database. -/
def client (app : App) : Client Store Uuid Redeemer RedemptionStep where
  writes := writes
  move := move app
  writes_next := by
    rintro ⟨call, state⟩ a view m h
    cases moves_of_move h with
    | commit => exact writes_finish app call _
    | _ => rfl

end Redeemer

/-! ## At most once -/

section Once

variable {τ : Type} {app : App} {st st' : State Store τ Redeemer}

/-- At most one call has returned the record of a challenge. -/
def RedeemedOnce (st : State Store τ Redeemer) : Prop :=
  ∀ t t' record record', (st.clients t).state = .returned (some record) →
    (st.clients t').state = .returned (some record') → record.row.id = record'.row.id → t = t'

/-- If the step is the destroy of a call that goes on to return its record, the row is still
    there. -/
def FindsRow (app : App) (st : State Store τ Redeemer) (e : τ × RedemptionStep) : Prop :=
  ∀ record, e.2 = .destroy → (st.clients e.1).state = .found record →
    (st.clients e.1).call.result app record = .ok (some record) →
      Redeemer.Present record.row.id st.committed

namespace Redeemer

/-- A destroyed record that is going to be returned had its row deleted. -/
def Deleted (app : App) (r : Redeemer) : Prop :=
  ∀ record deleted, r.state = .destroyed record deleted →
    r.call.result app record = .ok (some record) → deleted = true

/-- The call is about to return the record of the row `k`. -/
def Claims (app : App) (k : Uuid) (r : Redeemer) : Prop :=
  ∃ record deleted, r.state = .destroyed record deleted ∧
    r.call.result app record = .ok (some record) ∧ record.row.id = k

/-- The call has returned the record of the row `k`. -/
def Won (k : Uuid) (r : Redeemer) : Prop :=
  ∃ record, r.state = .returned (some record) ∧ record.row.id = k

theorem finish_won {call : Redemption} {record : ChallengeRecord} {k : Uuid}
    (h : Won k (finish app call record)) :
    call.result app record = .ok (some record) ∧ record.row.id = k := by
  obtain ⟨r, hr, rfl⟩ := h
  unfold finish at hr
  split at hr
  · rename_i result hresult
    cases hr
    obtain rfl := Redemption.result_eq_some hresult
    exact ⟨hresult, rfl⟩
  · cases hr

theorem view_of_found {t : τ} {record : ChallengeRecord}
    (h : (st.clients t).state = .found record) : (client app).view st t = st.committed := by
  refine Client.view_of_nil ?_
  show writes _ = []
  rw [writes, h]

/-- Every destroy that matters deletes its row, if it finds it. -/
theorem deleted_next {t : τ} {a : RedemptionStep} {m : Move Store Uuid Redeemer}
    (hP : FindsRow app st (t, a))
    (hm : (client app).move (st.clients t) a ((client app).view st t) = some m) :
    Deleted app m.next := by
  intro record deleted hstate hresult
  generalize hview : (client app).view st t = view at hm
  have hmoves := moves_of_move hm
  generalize hs : (st.clients t).state = s at hmoves
  cases hmoves with
  | deleted => cases hstate; rfl
  | gone hgone =>
    cases hstate
    rw [← hview, view_of_found hs] at hgone
    exact absurd (hP _ rfl hs hresult) hgone
  | commit => exact absurd hstate (finish_ne_destroyed _ _ _ _ _)
  | _ => cases hstate

/-- The delete is what makes a code single-use. -/
theorem soleClaim (k : Uuid) :
    SoleClaim (client app) (FindsRow (τ := τ) app) (fun _ => True) (Deleted app) k (Present k)
      (Claims app k) (Won k) where
  claim := by
    rintro st t a m hP - hm ⟨record, deleted, hstate, hresult, rfl⟩ -
    have hdeleted := deleted_next hP hm _ _ hstate hresult
    generalize hview : (client app).view st t = view at hm
    have hmoves := moves_of_move hm
    generalize hs : (st.clients t).state = s at hmoves
    cases hmoves with
    | deleted hpresent =>
      cases hstate
      rw [← hview, view_of_found hs] at hpresent
      exact ⟨hpresent, _, _, rfl, rfl⟩
    | gone => cases hstate; cases hdeleted
    | commit => exact absurd hstate (finish_ne_destroyed _ _ _ _ _)
    | _ => cases hstate
  holds := by
    rintro l hl ⟨record, deleted, hstate, hresult, rfl⟩
    obtain rfl := hl _ _ hstate hresult
    refine ⟨deleteRow record.row.id, ?_, rfl⟩
    show _ ∈ writes l
    rw [writes, hstate]
    exact List.mem_singleton.mpr rfl
  win := by
    rintro l a view m - hm hwon hnot
    have hmoves := moves_of_move hm
    generalize hs : l.state = s at hmoves
    cases hmoves with
    | commit =>
      obtain ⟨hresult, hid⟩ := finish_won hwon
      exact ⟨⟨_, _, hs, hresult, hid⟩, _, rfl⟩
    | _ => obtain ⟨record, hstate, -⟩ := hwon; cases hstate
  deletes := by
    rintro l hl ⟨record, deleted, hstate, hresult, rfl⟩ s ⟨row, hrow, hid⟩
    obtain rfl := hl _ _ hstate hresult
    have hwrites : (client app).writes l = [deleteRow record.row.id] := by
      show writes l = _
      rw [writes, hstate]
    rw [hwrites] at hrow
    exact (Store.mem_deleteChallenge.mp hrow).2 hid
  stays := by
    rintro l - w hw s hnot ⟨row, hrow, hid⟩
    obtain ⟨id, rfl⟩ := mem_writes hw
    exact hnot ⟨row, (Store.mem_deleteChallenge.mp hrow).1, hid⟩

end Redeemer

/-- **Main theorem**: in every run in which each destroy of a record that is going to be returned
    finds its row, no challenge is redeemed twice. -/
theorem redeemed_once [DecidableEq τ] {es : List (τ × RedemptionStep)}
    (hcalled : ∀ t, (st.clients t).state = .called)
    (hrun : Run (ReadCommitted.Step (Redeemer.client app)) st es st')
    (hfinds : Along (ReadCommitted.Step (Redeemer.client app)) (FindsRow app) st es) : RedeemedOnce st' := by
  intro t t' record record' ht ht' hid
  refine (Redeemer.soleClaim record.row.id).run (local_invariant (fun _ _ _ _ _ h => h) ?_) hrun
    hfinds ⟨trivial, fun t => ?_⟩ (fun t => ⟨?_, ?_⟩) ⟨record, ht, rfl⟩ ⟨record', ht', hid.symm⟩
  · exact fun st t a m hP _ _ hm => Redeemer.deleted_next hP hm
  · intro record deleted h
    rw [hcalled t] at h
    cases h
  · rintro ⟨record, deleted, h, -⟩
    rw [hcalled t] at h
    cases h
  · rintro ⟨record, h, -⟩
    rw [hcalled t] at h
    cases h

/-! ## Alone, and twice -/

section Runs

variable [DecidableEq τ] {call : Redemption} {record : ChallengeRecord} {t : τ} {s : Store}
  {calls : τ → Redeemer}

namespace Redeemer

/-- A call begins its transaction and looks the code up. -/
def lookUp : List RedemptionStep := [.begin, .findByPk]

/-- A call destroys the record it has found and commits. -/
def consume : List RedemptionStep := [.destroy, .commit]

theorem lookUp_alone (app : App)
    (hfind : AuthorizationChallengeRepoService.findByPk call.code s = .ok record) :
    (client app).runAlone lookUp (⟨call, .called⟩, s) = some (⟨call, .found record⟩, s) := by
  have hmove : (client app).move ⟨call, .begun⟩ .findByPk s = some (.look ⟨call, .found record⟩) := by
    simp only [client, move, hfind]
  exact (Client.runAlone_cons (rfl : (client app).move ⟨call, .called⟩ .begin s = _) _).trans
    (Client.runAlone_cons hmove [])

/-- The end of a call that has found a record, whether the row is still there or not. -/
theorem consume_alone (app : App) (call : Redemption) (record : ChallengeRecord) (s : Store) :
    (client app).runAlone consume (⟨call, .found record⟩, s) =
    some (finish app call record,
      if Present record.row.id s then s.deleteChallenge record.row.id else s) := by
  by_cases hrow : Present record.row.id s
  · have hmove : (client app).move ⟨call, .found record⟩ .destroy s =
        some (.write (deleteRow record.row.id) ⟨call, .destroyed record true⟩) := by
      simp only [client, move, hrow, if_true]
    rw [if_pos hrow]
    exact Client.runAlone_cons hmove [.commit]
  · have hmove : (client app).move ⟨call, .found record⟩ .destroy s =
        some (.look ⟨call, .destroyed record false⟩) := by
      simp only [client, move, hrow, if_false]
    rw [if_neg hrow]
    exact Client.runAlone_cons hmove [.commit]

end Redeemer

/-- Without other open transactions the steps leave the tables as `consumeCode` does, and end with
    what the method makes of its record. -/
theorem redeem_alone {env : Env} {s' : Store}
    (h : AuthorizationChallengeRepoService.consumeCode env call.code s = (.ok record, s')) :
    (Redeemer.client app).runAlone (Redeemer.lookUp ++ Redeemer.consume) (⟨call, .called⟩, s) =
      some (Redeemer.finish app call record, s') := by
  obtain ⟨hfind, -, rfl⟩ := AuthorizationChallengeRepoService.consumeCode_eq_ok.mp h
  obtain ⟨-, hrow, -⟩ := AuthorizationChallengeRepoService.findByPk_eq_ok.mp hfind
  have hpresent : Redeemer.Present record.row.id s := ⟨_, hrow, rfl⟩
  rw [Client.runAlone_append (Redeemer.lookUp_alone app hfind), Redeemer.consume_alone,
    if_pos hpresent]

/-- **Main theorem**: two calls that would each get the record of a code both get it, if both look
    it up before either commits. -/
theorem redeemed_twice {call' : Redemption} {t' : τ} (hne : t' ≠ t)
    (hcalled : ∀ u, (calls u).state = .called) (hcall : (calls t).call = call)
    (hcall' : (calls t').call = call')
    (hfind : AuthorizationChallengeRepoService.findByPk call.code s = .ok record)
    (hfind' : AuthorizationChallengeRepoService.findByPk call'.code s = .ok record)
    (hresult : call.result app record = .ok (some record))
    (hresult' : call'.result app record = .ok (some record)) :
    ∃ es st', Run (ReadCommitted.Step (Redeemer.client app)) ⟨s, calls⟩ es st' ∧
      (st'.clients t).state = .returned (some record) ∧
      (st'.clients t').state = .returned (some record) := by
  have hquiet : (Redeemer.client app).Quiet calls := fun u => by
    show (calls u).writes = []
    rw [Redeemer.writes, hcalled u]
  -- both look the code up
  obtain ⟨calls₁, hrun₁, hquiet₁, ht₁, hothers₁⟩ := Client.run_alone hquiet
    (show calls t = ⟨call, .called⟩ by rw [← hcall, ← hcalled t])
    (Redeemer.lookUp_alone app hfind) rfl
  obtain ⟨calls₂, hrun₂, hquiet₂, ht₂, hothers₂⟩ := Client.run_alone hquiet₁
    (show calls₁ t' = ⟨call', .called⟩ by rw [hothers₁ t' hne, ← hcall', ← hcalled t'])
    (Redeemer.lookUp_alone app hfind') rfl
  -- the first takes the row away, and the second finds it gone
  obtain ⟨calls₃, hrun₃, hquiet₃, ht₃, hothers₃⟩ := Client.run_alone hquiet₂
    ((hothers₂ t hne.symm).trans ht₁) (Redeemer.consume_alone app call record s)
    (Redeemer.writes_finish ..)
  obtain ⟨calls₄, hrun₄, -, ht₄, hothers₄⟩ := Client.run_alone hquiet₃
    ((hothers₃ t' hne).trans ht₂) (Redeemer.consume_alone app call' record _)
    (Redeemer.writes_finish ..)
  refine ⟨_, _, Run.append_iff.mpr ⟨_, hrun₁, Run.append_iff.mpr ⟨_, hrun₂, Run.append_iff.mpr
    ⟨_, hrun₃, hrun₄⟩⟩⟩, ?_, ?_⟩
  · show (calls₄ t).state = _
    rw [hothers₄ t hne.symm, ht₃, Redeemer.finish_of_result hresult]
  · show (calls₄ t').state = _
    rw [ht₄, Redeemer.finish_of_result hresult']

end Runs

end Once

namespace Sample

/-- The challenge that the code `2` names, with its rows. -/
def codeRecord : ChallengeRecord where
  row := code .AuthorizationCode
  user := user
  client := client .AuthorizationCode

/-- The exchange of the code `2` with the id of its client. -/
def redemption : Redemption := .verifyWithClientId (uuid 2).toString (uuid 1).toString

def redemptions (_ : Fin 2) : Redeemer := ⟨redemption, .called⟩

theorem findByPk_codeStore : AuthorizationChallengeRepoService.findByPk redemption.code
    (codeStore .AuthorizationCode) = .ok codeRecord := by
  rw [AuthorizationChallengeRepoService.findByPk_eq_ok, redemption, Redemption.code,
    Uuid.ofText?_toString]
  decide

theorem redemption_result : redemption.result app codeRecord = .ok (some codeRecord) :=
  congrArg Except.ok (if_pos rfl)

theorem present_codeRecord : Redeemer.Present codeRecord.row.id (codeStore .AuthorizationCode) := by
  decide

theorem findByPk_deleted : AuthorizationChallengeRepoService.findByPk redemption.code
    ((codeStore .AuthorizationCode).deleteChallenge codeRecord.row.id) = .error .emptyResult := by
  have hnone : ((codeStore .AuthorizationCode).deleteChallenge codeRecord.row.id).challenges.find?
      (uuid 2) = none := by decide
  rw [AuthorizationChallengeRepoService.findByPk, redemption, Redemption.code, Uuid.ofText?_toString]
  dsimp only
  split
  · rfl
  · rename_i hrow
    rw [hnone] at hrow
    cases hrow

/-- A call that has begun finds the code gone. -/
theorem findByPk_alone : (Redeemer.client app).runAlone [.findByPk] (⟨redemption, .begun⟩,
    (codeStore .AuthorizationCode).deleteChallenge codeRecord.row.id) =
      some (⟨redemption, .rejected .emptyResult⟩,
        (codeStore .AuthorizationCode).deleteChallenge codeRecord.row.id) := by
  have hmove : (Redeemer.client app).move ⟨redemption, .begun⟩ .findByPk
      ((codeStore .AuthorizationCode).deleteChallenge codeRecord.row.id) =
        some (.rollback ⟨redemption, .rejected .emptyResult⟩) := by
    simp only [Redeemer.client, Redeemer.move, findByPk_deleted]
  exact Client.runAlone_cons hmove []

end Sample

/-- One of the two is answered with the record. The other begins first, but looks the code up after
    the commit, and finds it gone. -/
theorem redeemed_once_sample : ∃ es st',
    Run (ReadCommitted.Step (Redeemer.client Sample.app))
      ⟨Sample.codeStore .AuthorizationCode, Sample.redemptions⟩ es st' ∧
    (st'.clients 0).state = .returned (some Sample.codeRecord) ∧
    (st'.clients 1).state = .rejected .emptyResult ∧ RedeemedOnce st' := by
  have hbegin : (Redeemer.client Sample.app).runAlone [.begin]
      (Sample.redemptions 1, Sample.codeStore .AuthorizationCode) =
        some (⟨Sample.redemption, .begun⟩, Sample.codeStore .AuthorizationCode) := rfl
  obtain ⟨calls₁, hrun₁, hquiet₁, ht₁, hothers₁⟩ := Client.run_alone
    (show (Redeemer.client Sample.app).Quiet Sample.redemptions from fun _ => rfl) rfl hbegin rfl
  obtain ⟨calls₂, hrun₂, hquiet₂, ht₂, hothers₂⟩ := Client.run_alone hquiet₁
    (hothers₁ 0 (by decide)) (Redeemer.lookUp_alone Sample.app Sample.findByPk_codeStore) rfl
  have hfinish := Redeemer.writes_finish Sample.app Sample.redemption Sample.codeRecord
  obtain ⟨calls₃, hrun₃, hquiet₃, ht₃, hothers₃⟩ := Client.run_alone hquiet₂ ht₂
    (Redeemer.consume_alone Sample.app _ _ _) hfinish
  rw [if_pos Sample.present_codeRecord] at hrun₃
  have hbegun : calls₃ 1 = ⟨Sample.redemption, .begun⟩ :=
    ((hothers₃ 1 (by decide)).trans (hothers₂ 1 (by decide))).trans ht₁
  obtain ⟨calls₄, hrun₄, -, ht₄, hothers₄⟩ :=
    Client.run_alone hquiet₃ hbegun Sample.findByPk_alone rfl
  have hrun := Run.append_iff.mpr ⟨_, hrun₁, Run.append_iff.mpr ⟨_, hrun₂,
    Run.append_iff.mpr ⟨_, hrun₃, hrun₄⟩⟩⟩
  refine ⟨_, _, hrun, ?_, ?_, redeemed_once (fun _ => rfl) hrun ?_⟩
  · show (calls₄ 0).state = _
    rw [hothers₄ 0 (by decide), ht₃, Redeemer.finish_of_result Sample.redemption_result]
  · show (calls₄ 1).state = _
    rw [ht₄]
  · -- the only destroy finds its row
    have hother : ∀ e : Fin 2 × RedemptionStep, e.2 ≠ .destroy → ∀ st,
        FindsRow Sample.app st e := fun e he st record hdestroy => absurd hdestroy he
    refine Along.append_of_run ReadCommitted.Step.unique hrun₁
      (Along.of_forall (by simpa using hother _ (by simp))) ?_
    refine Along.append_of_run ReadCommitted.Step.unique hrun₂ (Along.of_forall ?_) ?_
    · simpa [Redeemer.lookUp] using ⟨hother (0, .begin) (by simp), hother (0, .findByPk) (by simp)⟩
    refine .cons ?_ fun m' _ => Along.of_forall ?_
    · intro record _ hfound _
      have hfound : (calls₂ 0).state = .found record := hfound
      rw [ht₂] at hfound
      cases hfound
      exact Sample.present_codeRecord
    · simpa using ⟨hother (0, .commit) (by simp), hother (1, .findByPk) (by simp)⟩

/-- Two concurrent exchanges of one code are both answered with its record. -/
theorem code_redeemed_twice : Reachable Sample.app (Sample.codeStore .AuthorizationCode) ∧
    ∃ es st', Run (ReadCommitted.Step (Redeemer.client Sample.app))
      ⟨Sample.codeStore .AuthorizationCode, Sample.redemptions⟩ es st' ∧ ¬ RedeemedOnce st' := by
  obtain ⟨es, st', hrun, h₀, h₁⟩ := redeemed_twice (show (1 : Fin 2) ≠ 0 by decide)
    (fun _ => rfl) (rfl : (Sample.redemptions 0).call = Sample.redemption)
    (rfl : (Sample.redemptions 1).call = Sample.redemption) Sample.findByPk_codeStore
    Sample.findByPk_codeStore Sample.redemption_result Sample.redemption_result
  exact ⟨⟨_, Sample.run_codeStore (by decide)⟩, es, st', hrun,
    fun h => absurd (h 0 1 _ _ h₀ h₁ rfl) (by decide)⟩

end NestTemplate
