import Teitunnel.Mcp.Auth

/-!
# Moves

What one step of the authorization server can do, case by case.
-/

namespace Teitunnel.Mcp

namespace Auth

/-- What a step can do: the facts it was taken under, and the state it leaves. -/
inductive Moves (c : Codec) (s : Auth) : Step → Auth → Prop
  | pass (ms) : Moves c s (.pass ms) { s with now := s.now + ms }
  | approve (hash code) (hnew : hash ∉ s.seen) :
      Moves c s (.approve hash code) ({ s with codes := s.codes.insert hash code }.see [hash])
  | miss (server form) (hcode : s.codes.find form.code = none) :
      Moves c s (.exchangeCode server form) ((s.see [form.code]).start (.replaying form.code))
  | misfit (server form code error) (hcode : s.codes.find form.code = some code) :
      Moves c s (.exchangeCode server form)
        ((({ s with codes := s.codes.erase form.code }.see [form.code]).record
          (.presentedCode s.started form.code s.now)).refuse (some error))
  | take (server form code resource) (hcode : s.codes.find form.code = some code) :
      Moves c s (.exchangeCode server form)
        ((({ s with codes := s.codes.erase form.code }.see [form.code]).record
          (.presentedCode s.started form.code s.now)).start
          (.exchanging server form.code (form.clientId.getD "") resource))
  | refresh (server form) (hknown : s.isSecret form.refreshToken = false) :
      Moves c s (.refresh server form) ((s.see [form.refreshToken]).start (.finding server form))
  | revokeAccess (server token a) (hknown : s.isSecret token = false)
      (hfind : s.access.find token = some a) (hhost : a.host = server.host) :
      Moves c s (.revoke server token)
        (((s.see [token]).record (.presentedRevoke s.started token)).start (.ending a.grant none))
  | revokeOther (server token) (hknown : s.isSecret token = false) :
      Moves c s (.revoke server token)
        (((s.see [token]).record (.presentedRevoke s.started token)).start
          (.revoking server token))
  | disconnect (id) (hknown : s.isSecret id = false) :
      Moves c s (.disconnect id)
        ((({ s with rows := deleteGrant s.rows id }.see [id]).record (.begun id)).start
          (.forgetting id))
  | disconnectElsewhere (id) (hknown : s.isSecret id = false) :
      Moves c s (.disconnectElsewhere id)
        (({ s with rows := deleteGrant s.rows id }.see [id]).record (.begun id))
  | announced (id) (hknown : s.isSecret id = false) :
      Moves c s (.connectionEnded id) (((s.see [id]).forget id).record (.begun id))
  | announcedEnd (id) (hknown : s.isSecret id = false) (hgone : ∀ row ∈ s.rows, row.id ≠ id) :
      Moves c s (.connectionEnded id)
        ((((s.see [id]).forget id).record (.begun id)).record (.ended id))
  | sync : Moves c s .sync
      (({ s with rows := sweep s.rows s.now } : Auth).start (.reading s.now))
  | issueFirst (i fresh server code clientId resource)
      (hi : s.tasks.find i = some (.exchanging server code clientId resource))
      (hdistinct : [fresh.access, fresh.refresh, fresh.grant].Nodup)
      (hnew : ∀ value ∈ [fresh.access, fresh.refresh, fresh.grant], value ∉ s.seen)
      (issued) (hissued : issued = s.issue fresh fresh.grant server.host resource
        (s.now + s.maxGrant)) :
      Moves c s (.proceed i fresh) (((s.accept issued).see [fresh.grant]).become i
        (.inserting code clientId (s.now + s.maxGrant) issued))
  | replayed (i fresh code time grant) (hi : s.tasks.find i = some (.replaying code))
      (hused : s.usedCodes.find code = some (time, grant)) :
      Moves c s (.proceed i fresh) (({ s with usedCodes := s.usedCodes.erase code }.record
        (.presentedCode i code s.now)).become i (.ending grant (some replayError)))
  | notReplayed (i fresh code) (hi : s.tasks.find i = some (.replaying code))
      (hused : s.usedCodes.find code = none) :
      Moves c s (.proceed i fresh)
        ((s.record (.presentedCode i code s.now)).answer i (some replayError))
  | insert (i fresh code clientId grantEnds issued)
      (hi : s.tasks.find i = some (.inserting code clientId grantEnds issued))
      (hnew : ∀ row ∈ s.rows, row.id ≠ issued.access.grant ∧ row.refreshHash ≠ issued.refresh) :
      Moves c s (.proceed i fresh) (({ s with rows :=
        s.rows ++ [(grantOf clientId grantEnds issued).newRow] }.record
        (.inserted code issued.access.grant)).become i (.remembering code issued))
  | drop (i fresh grant error) (hi : s.tasks.find i = some (.dropping grant error)) :
      Moves c s (.proceed i fresh)
        (((s.forget grant).record (.begun grant)).answer i (some error))
  | remember (i fresh code issued) (hi : s.tasks.find i = some (.remembering code issued)) :
      Moves c s (.proceed i fresh)
        ((({ s with usedCodes := s.usedCodes.insert code (s.now, issued.access.grant) }.record
          (.remembered code issued.access.grant s.now)).record
          (.returned issued.hash issued.access)).answer i none)
  | foundOver (i fresh server form grant error) (hi : s.tasks.find i = some (.finding server form))
      (hfind : findRefresh s.rows server.host form.refreshToken = .current grant)
      (hover : grant.expiresAt ≤ s.now) :
      Moves c s (.proceed i fresh) ((s.record (.presentedRefresh i form.refreshToken)).become i
        (.ending grant.id (some error)))
  | foundMisfit (i fresh server form grant error)
      (hi : s.tasks.find i = some (.finding server form))
      (hfind : findRefresh s.rows server.host form.refreshToken = .current grant)
      (hlive : s.now < grant.expiresAt) :
      Moves c s (.proceed i fresh) ((s.record (.presentedRefresh i form.refreshToken)).answer i
        (some error))
  | found (i fresh server form grant) (hi : s.tasks.find i = some (.finding server form))
      (hfind : findRefresh s.rows server.host form.refreshToken = .current grant)
      (hlive : s.now < grant.expiresAt) :
      Moves c s (.proceed i fresh) ((s.record (.presentedRefresh i form.refreshToken)).become i
        (.refreshing server form.refreshToken grant))
  | foundReused (i fresh server form grant) (hi : s.tasks.find i = some (.finding server form))
      (hfind : findRefresh s.rows server.host form.refreshToken = .reused grant) :
      Moves c s (.proceed i fresh) ((s.record (.presentedRefresh i form.refreshToken)).become i
        (.ending grant (some reuseError)))
  | foundNone (i fresh server form error) (hi : s.tasks.find i = some (.finding server form))
      (hfind : findRefresh s.rows server.host form.refreshToken = .unknown) :
      Moves c s (.proceed i fresh) ((s.record (.presentedRefresh i form.refreshToken)).answer i
        (some error))
  | issueNext (i fresh server presented grant)
      (hi : s.tasks.find i = some (.refreshing server presented grant))
      (hdistinct : fresh.access ≠ fresh.refresh)
      (hnew : ∀ value ∈ [fresh.access, fresh.refresh], value ∉ s.seen)
      (issued) (hissued : issued = s.issue fresh grant.id server.host grant.resource
        grant.expiresAt) :
      Moves c s (.proceed i fresh) ((s.accept issued).become i (.rotating presented issued))
  | rotate (i fresh presented issued) (hi : s.tasks.find i = some (.rotating presented issued))
      (hheld : ∃ row ∈ s.rows, row.isHeld issued.access.grant presented) :
      Moves c s (.proceed i fresh) (({ s with rows := (Mcp.rotate s.rows issued.access.grant presented
        (issued.hash, issued.access.expiresAt) (issued.refresh, issued.refreshExpiresAt)).1 }.record
        (.rotated i presented issued.access.grant)).become i (.keeping issued))
  | rotateLost (i fresh presented issued) (hi : s.tasks.find i = some (.rotating presented issued))
      (hlost : (Mcp.rotate s.rows issued.access.grant presented
        (issued.hash, issued.access.expiresAt) (issued.refresh, issued.refreshExpiresAt)).2 = false) :
      Moves c s (.proceed i fresh) (s.become i (.ending issued.access.grant (some reuseError)))
  | keep (i fresh issued) (hi : s.tasks.find i = some (.keeping issued)) :
      Moves c s (.proceed i fresh) (({ s with access := s.access.retain fun hash a =>
        a.grant ≠ issued.access.grant || hash = issued.hash }.record
        (.returned issued.hash issued.access)).answer i none)
  | revokeFound (i fresh server token grant) (hi : s.tasks.find i = some (.revoking server token))
      (hfind : findRefresh s.rows server.host token = .current grant) :
      Moves c s (.proceed i fresh) (s.become i (.ending grant.id none))
  | revokeNothing (i fresh server token) (hi : s.tasks.find i = some (.revoking server token))
      (hfind : ∀ grant, findRefresh s.rows server.host token ≠ .current grant) :
      Moves c s (.proceed i fresh) (s.answer i none)
  | endForget (i fresh grant error) (hi : s.tasks.find i = some (.ending grant error)) :
      Moves c s (.proceed i fresh)
        (((s.forget grant).record (.begun grant)).become i (.deleting grant error))
  | endDelete (i fresh grant error) (hi : s.tasks.find i = some (.deleting grant error)) :
      Moves c s (.proceed i fresh)
        (({ s with rows := deleteGrant s.rows grant }.record (.ended grant)).answer i error)
  | disconnectForget (i fresh grant) (hi : s.tasks.find i = some (.forgetting grant)) :
      Moves c s (.proceed i fresh) (((s.forget grant).record (.ended grant)).answer i none)
  | read (i fresh since) (hi : s.tasks.find i = some (.reading since)) :
      Moves c s (.proceed i fresh) (s.become i (.replacing since (grants s.rows)))
  | replace (i fresh since grants) (hi : s.tasks.find i = some (.replacing since grants)) :
      Moves c s (.proceed i fresh) ({ s with
        access := tokenIndex since grants
        codes := s.codes.retain fun _ code => s.now < code.expires
        usedCodes := s.usedCodes.retain fun _ used => s.now - used.1 < PENDING_TTL * 2 }.answer i
          none)
  | giveUp (i error answer st) (hi : s.tasks.find i = some st)
      (hst : match st with
        | .exchanging .. | .finding .. | .refreshing .. | .rotating .. | .revoking .. |
          .reading .. => True
        | _ => False) :
      Moves c s (.fail i error) (s.answer i answer)
  | insertFails (i error code clientId grantEnds issued)
      (hi : s.tasks.find i = some (.inserting code clientId grantEnds issued)) :
      Moves c s (.fail i error) (s.become i (.dropping issued.access.grant error))
  | deleteFails (i error grant answer) (hi : s.tasks.find i = some (.deleting grant answer)) :
      Moves c s (.fail i error) ((s.record (.ended grant)).answer i answer)

variable {c : Codec} {s t : Auth}

lemma moves_of_exchangeCode {server : Server} {form : CodeForm} :
    Moves c s (.exchangeCode server form) ((s.see [form.code]).exchangeCode c server form) := by
  have hcodes : (s.see [form.code]).codes = s.codes := rfl
  have hnow : (s.see [form.code]).now = s.now := rfl
  rw [exchangeCode, hcodes, hnow]
  cases hcode : s.codes.find form.code with
  | none => exact .miss server form hcode
  | some code =>
      dsimp only
      cases checkCode c s.now server form code with
      | error error => exact .misfit server form code error hcode
      | ok resource => exact .take server form code resource hcode

lemma moves_of_finding {i : ℕ} {fresh : Fresh} {server : Server} {form : RefreshForm}
    (hi : s.tasks.find i = some (.finding server form))
    (h : s.proceed c i fresh (.finding server form) = some t) :
    Moves c s (.proceed i fresh) t := by
  rw [proceed] at h
  have hrows : (s.record (.presentedRefresh i form.refreshToken)).rows = s.rows := rfl
  rw [hrows] at h
  cases hfind : findRefresh s.rows server.host form.refreshToken with
  | unknown =>
      rw [hfind] at h
      exact Option.some.inj h ▸ .foundNone i fresh server form _ hi hfind
  | reused grant =>
      rw [hfind] at h
      exact Option.some.inj h ▸ .foundReused i fresh server form grant hi hfind
  | current grant =>
      rw [hfind] at h
      obtain rfl := Option.some.inj h
      rw [checkRefresh]
      split_ifs with hover hclient
      · exact .foundOver i fresh server form grant _ hi hfind hover
      · exact .foundMisfit i fresh server form grant _ hi hfind (not_le.mp hover)
      · cases requestedAudience c server form.resource with
        | error error => exact .foundMisfit i fresh server form grant _ hi hfind (not_le.mp hover)
        | ok asked =>
            dsimp only
            split_ifs
            · exact .foundMisfit i fresh server form grant _ hi hfind (not_le.mp hover)
            · exact .found i fresh server form grant hi hfind (not_le.mp hover)

lemma moves_of_proceed {i : ℕ} {fresh : Fresh} {st : Stage} (hi : s.tasks.find i = some st)
    (h : s.proceed c i fresh st = some t) : Moves c s (.proceed i fresh) t := by
  cases st with
  | exchanging server code clientId resource =>
      rw [proceed] at h
      dsimp only at h
      split_ifs at h with hfresh
      exact Option.some.inj h ▸
        .issueFirst i fresh server code clientId resource hi hfresh.1 hfresh.2 _ rfl
  | replaying code =>
      rw [proceed] at h
      have hsame : (s.record (.presentedCode i code s.now)).usedCodes = s.usedCodes := rfl
      rw [hsame] at h
      cases hused : s.usedCodes.find code with
      | none =>
          rw [hused] at h
          exact Option.some.inj h ▸ .notReplayed i fresh code hi hused
      | some used =>
          obtain ⟨time, grant⟩ := used
          rw [hused] at h
          exact Option.some.inj h ▸ .replayed i fresh code time grant hi hused
  | inserting code clientId grantEnds issued =>
      rw [proceed, Option.map_eq_some_iff] at h
      obtain ⟨rows, hinsert, rfl⟩ := h
      obtain ⟨rfl, hnew⟩ := insertGrant_eq_some hinsert
      exact .insert i fresh code clientId grantEnds issued hi hnew
  | dropping grant error => exact Option.some.inj h ▸ .drop i fresh grant error hi
  | remembering code issued => exact Option.some.inj h ▸ .remember i fresh code issued hi
  | finding server form => exact moves_of_finding hi h
  | refreshing server presented grant =>
      rw [proceed] at h
      split_ifs at h with hfresh
      have hne : fresh.access ≠ fresh.refresh := by
        have hdistinct := hfresh.1
        simp only [List.nodup_cons, List.mem_singleton] at hdistinct
        exact hdistinct.1
      exact Option.some.inj h ▸ .issueNext i fresh server presented grant hi hne hfresh.2 _ rfl
  | rotating presented issued =>
      rw [proceed] at h
      split_ifs at h with hrotated
      · exact Option.some.inj h ▸
          .rotate i fresh presented issued hi (exists_of_rotate hrotated)
      · exact Option.some.inj h ▸ .rotateLost i fresh presented issued hi (by simpa using hrotated)
  | keeping issued => exact Option.some.inj h ▸ .keep i fresh issued hi
  | revoking server token =>
      rw [proceed] at h
      cases hfind : findRefresh s.rows server.host token with
      | current grant =>
          rw [hfind] at h
          exact Option.some.inj h ▸ .revokeFound i fresh server token grant hi hfind
      | reused grant =>
          rw [hfind] at h
          exact Option.some.inj h ▸ .revokeNothing i fresh server token hi (by simp [hfind])
      | unknown =>
          rw [hfind] at h
          exact Option.some.inj h ▸ .revokeNothing i fresh server token hi (by simp [hfind])
  | ending grant answer => exact Option.some.inj h ▸ .endForget i fresh grant answer hi
  | deleting grant answer => exact Option.some.inj h ▸ .endDelete i fresh grant answer hi
  | forgetting grant => exact Option.some.inj h ▸ .disconnectForget i fresh grant hi
  | reading since => exact Option.some.inj h ▸ .read i fresh since hi
  | replacing since grants => exact Option.some.inj h ▸ .replace i fresh since grants hi

lemma moves_of_fail {i : ℕ} {error : OAuthError} {st : Stage} (hi : s.tasks.find i = some st)
    (h : s.fail i error st = some t) : Moves c s (.fail i error) t := by
  cases st with
  | inserting code clientId grantEnds issued =>
      exact Option.some.inj h ▸ .insertFails i error code clientId grantEnds issued hi
  | deleting grant answer => exact Option.some.inj h ▸ .deleteFails i error grant answer hi
  | replaying | dropping | remembering | keeping | ending | forgetting | replacing =>
      simp [fail] at h
  | _ => exact Option.some.inj h ▸ .giveUp i error _ _ hi trivial

theorem moves_of_step {a : Step} (h : s.step c a = some t) : Moves c s a t := by
  cases a with
  | pass ms => exact Option.some.inj h ▸ .pass ms
  | approve hash code =>
      rw [step] at h
      split_ifs at h with hseen
      exact Option.some.inj h ▸ .approve hash code hseen
  | exchangeCode server form =>
      rw [step] at h
      split_ifs at h with hknown
      exact Option.some.inj h ▸ moves_of_exchangeCode
  | refresh server form =>
      rw [step] at h
      split_ifs at h with hknown
      exact Option.some.inj h ▸ .refresh server form (by simpa using hknown)
  | revoke server token =>
      rw [step] at h
      split_ifs at h with hknown
      have hknown : s.isSecret token = false := by simpa using hknown
      obtain rfl := Option.some.inj h
      have haccess : ((s.see [token]).record (.presentedRevoke (s.see [token]).started
        token)).access = s.access := rfl
      rw [Auth.revoke, haccess]
      cases hfind : (s.access.find token).filter fun a => a.host = server.host with
      | none => exact .revokeOther server token hknown
      | some a =>
          obtain ⟨hfind, hhost⟩ := Option.filter_eq_some_iff.mp hfind
          exact .revokeAccess server token a hknown hfind (by simpa using hhost)
  | disconnect id =>
      rw [step] at h
      split_ifs at h with hknown
      exact Option.some.inj h ▸ .disconnect id (by simpa using hknown)
  | disconnectElsewhere id =>
      rw [step] at h
      split_ifs at h with hknown
      exact Option.some.inj h ▸ .disconnectElsewhere id (by simpa using hknown)
  | connectionEnded id =>
      rw [step] at h
      dsimp only at h
      split_ifs at h with hknown hrow
      · exact Option.some.inj h ▸ .announced id (by simpa using hknown)
      · refine Option.some.inj h ▸ .announcedEnd id (by simpa using hknown) fun row hmem hid => ?_
        exact hrow (List.any_eq_true.mpr ⟨row, hmem, by simpa using hid⟩)
  | sync => exact Option.some.inj h ▸ .sync
  | proceed i fresh =>
      obtain ⟨st, hi, hst⟩ := Option.bind_eq_some_iff.mp h
      exact moves_of_proceed hi hst
  | fail i error =>
      obtain ⟨st, hi, hst⟩ := Option.bind_eq_some_iff.mp h
      exact moves_of_fail hi hst

end Auth

end Teitunnel.Mcp
