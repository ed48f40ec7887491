import Teitunnel.Lib.Lists
import Teitunnel.Lib.Runs
import Teitunnel.Properties.Places
import Teitunnel.Reference
import Teitunnel.Sharing.DomainShares

/-!
# A share removes its own route, and remembers it

Every start puts its rule where there was none, takes it back when its change isn't applied, and
has its hostname to itself while it runs.  Then a stop takes down only what was put there since
the share started, and every rule that a start put there is remembered until it goes.
-/

namespace Teitunnel.Sharing

open Ledger Runs Except

/-- The share a start or a stop is about to add, remove, remember or forget. -/
def Task.holds : Task → Option ShareKey
  | .start share _ _ => some share.key
  | .stop _ .waiting _ | .done => none
  | .stop key _ _ => some key

namespace DomainShares

/-- The rules for a hostname, without a path. -/
def rulesAt (m : DomainShares) (account hostname : String) : List IngressRule :=
  m.toTunnels.rulesAt account (some hostname, none)

/-- Who put the rules of a hostname (without a path) there. -/
def maker (m : DomainShares) (account hostname : String) : Option Maker :=
  m.standing account (some hostname, none)

/-- What a stop took away was put there after the last start of a share of the hostname began. -/
def RemovesOwn (m : DomainShares) : Prop :=
  ∀ past later account name before after hostname,
    m.log = past ++ .changed account (.stop name) before after :: later →
    (∃ r ∈ itemsAt IngressRule.key before (some hostname, none), r ∉ after) →
      fresh IngressRule.key past account (some hostname, none) = true

/-- The share is remembered of every rule that a start put there and that is there still. -/
def NeverForgets [External] (m : DomainShares) : Prop :=
  ∀ account hostname name, m.maker account hostname = some (.start name) →
    ∃ share h, m.shares.find (account, name) = some share ∧ Hostname.parse name = .ok h ∧
      h.asStr = hostname

/-- Nothing that runs is about the share. -/
def Free (m : DomainShares) (key : ShareKey) : Prop := ∀ task ∈ m.tasks, task.holds ≠ some key

instance (m : DomainShares) (key : ShareKey) : Decidable (m.Free key) :=
  inferInstanceAs (Decidable (∀ task ∈ m.tasks, _))

/-- A start finds no rule for its hostname, takes its own back when it can't be undone, and what
a stop's preview calls gone is gone; neither begins while another is about the share. -/
def Careful [External] (m : DomainShares) : Step → Prop
  | .start account now request seen => ∀ route fingerprint,
      accept request seen = .ok (route, fingerprint) →
        m.rulesAt account route.hostname.asStr = [] ∧ m.Free (request.share account now).key
  | .applyStart i seen (.partiallyApplied ran) => ∀ share route fingerprint after,
      m.tasks[i]? = some (.start share route (.recorded fingerprint)) →
      Engine.apply (.addRoute route) ⟨fingerprint, false⟩ (.partiallyApplied ran) seen =
        .ok after →
      SameItems (m.rulesAt share.accountId route.hostname.asStr)
        (Teitunnel.rulesAt after (some route.hostname.asStr, none))
  | .previewStop i seen => ∀ key rest, m.tasks[i]? = some (.stop key .waiting rest) →
      m.Free key ∧ ∀ hostname e, parseHostname key.2 = .ok hostname →
        Engine.preview (.removeRoute hostname none) seen = .error e → isGone e = true →
          m.rulesAt key.1 hostname.asStr = []
  | _ => True

variable {m m' : DomainShares} {i : ℕ} {task : Task} {account hostname : String} {by_ : Maker}
  {after : Option (List IngressRule)} {key : ShareKey}

/-! ## What is at a hostname after a change -/

lemma rulesAt_change : (m.change account by_ after).rulesAt account hostname =
    Teitunnel.rulesAt after (some hostname, none) := Tunnels.rulesAt_change

lemma rulesAt_change_of_ne {other : String} (h : other ≠ account) :
    (m.change account by_ after).rulesAt other hostname = m.rulesAt other hostname :=
  Tunnels.rulesAt_change_of_ne h

/-- Who put the rules of a hostname there after a change: who had before, or who made it. -/
lemma maker_change {other : String} {maker' : Maker}
    (h : (m.change account by_ after).maker other hostname = some maker') :
    m.maker other hostname = some maker' ∧ (account = other → (m.rulesAt account hostname = [] ↔
        Teitunnel.rulesAt after (some hostname, none) = [])) ∨
      account = other ∧ by_ = maker' ∧ Teitunnel.rulesAt after (some hostname, none) ≠ [] ∧
        ¬ SameItems (m.rulesAt account hostname) (Teitunnel.rulesAt after (some hostname, none)) :=
  Tunnels.standing_change h

lemma goto_cases {j : ℕ} {task' : Task} (h : (m.goto i task).tasks[j]? = some task') :
    (j = i ∧ task' = task) ∨ (j ≠ i ∧ m.tasks[j]? = some task') := by
  rw [goto, List.getElem?_set] at h
  split_ifs at h with hij hlen
  · exact .inl ⟨hij.symm, (Option.some.inj h).symm⟩
  · exact .inr ⟨Ne.symm hij, h⟩

/-! ## The invariant -/

/-- What a start or a stop on its way relies on. -/
def Sound [External] (m : DomainShares) : Task → Prop
  | .start share route stage =>
      (Hostname.parse share.hostname = .ok route.hostname ∧ route.path = none) ∧
      (∀ fingerprint, stage = .recorded fingerprint → (m.shares.find share.key).isSome) ∧
      ∀ hostname, m.maker share.accountId hostname ≠ some (.start share.hostname)
  | .stop key stage _ =>
      stage = .gone → ∀ hostname, m.maker key.1 hostname ≠ some (.start key.2)
  | .done => True

structure Orderly [External] (m : DomainShares) : Prop where
  present : ∀ account hostname by_, m.maker account hostname = some by_ →
    m.rulesAt account hostname ≠ []
  fresh : ∀ account hostname, m.rulesAt account hostname ≠ [] →
    fresh IngressRule.key m.log account (some hostname, none) = true
  own : m.RemovesOwn
  kept : m.NeverForgets
  tasks : ∀ (i : ℕ) (task : Task), m.tasks[i]? = some task → m.Sound task
  apart : ∀ (i j : ℕ) (task task' : Task) (key : ShareKey), m.tasks[i]? = some task →
    m.tasks[j]? = some task' → task.holds = some key → task'.holds = some key → i = j

variable [External]

/-- A task goes on, about a share that no other task is about. -/
lemma Orderly.goto (h : Orderly m) (hsound : m.Sound task)
    (hapart : ∀ (j : ℕ) (other : Task) (key : ShareKey), j ≠ i → m.tasks[j]? = some other →
      task.holds = some key → other.holds ≠ some key) :
    Orderly (m.goto i task) := by
  refine ⟨h.present, h.fresh, h.own, h.kept, ?_, ?_⟩
  · intro j task' hj
    rcases goto_cases hj with ⟨rfl, rfl⟩ | ⟨-, hj⟩
    · exact hsound
    · exact h.tasks j task' hj
  · intro j k task₁ task₂ key hj hk hkey₁ hkey₂
    rcases goto_cases hj with ⟨rfl, rfl⟩ | ⟨hne₁, hother₁⟩ <;>
      rcases goto_cases hk with ⟨rfl, rfl⟩ | ⟨hne₂, hother₂⟩
    · rfl
    · exact absurd hkey₂ (hapart _ _ key hne₂ hother₂ hkey₁)
    · exact absurd hkey₁ (hapart _ _ key hne₁ hother₁ hkey₂)
    · exact h.apart _ _ task₁ task₂ key hother₁ hother₂ hkey₁ hkey₂

/-- A task goes on about the share it was about, or about none. -/
lemma Orderly.goOn {old : Task} (h : Orderly m) (hi : m.tasks[i]? = some old)
    (hsound : m.Sound task) (hholds : ∀ key, task.holds = some key → old.holds = some key) :
    Orderly (m.goto i task) :=
  h.goto hsound fun _ _ key hne hj hkey hother =>
    hne (h.apart _ _ _ _ key hj hi hother (hholds key hkey))

/-- Nobody is about a share any more when the task that was has gone on. -/
lemma Orderly.free_goto {old : Task} (h : Orderly m) (hi : m.tasks[i]? = some old)
    (hold : old.holds = some key) (htask : task.holds ≠ some key) : (m.goto i task).Free key := by
  intro other hmem hkey
  obtain ⟨j, hj⟩ := List.mem_iff_getElem?.mp hmem
  rcases goto_cases hj with ⟨-, rfl⟩ | ⟨hne, hother⟩
  · exact htask hkey
  · exact hne (h.apart _ _ _ _ key hother hi hkey hold)

/-! ## Changes of the rules -/

/-- What does not depend on who makes a change. -/
lemma Orderly.present_change (h : Orderly m) (other : String) (maker' : Maker)
    (hmaker : (m.change account by_ after).maker other hostname = some maker') :
    (m.change account by_ after).rulesAt other hostname ≠ [] := by
  by_cases hother : other = account
  · subst hother
    rw [rulesAt_change]
    rcases maker_change hmaker with ⟨hbefore, hsame⟩ | ⟨-, -, hafter, -⟩
    · exact fun hnil => h.present _ _ _ hbefore ((hsame rfl).mpr hnil)
    · exact hafter
  · rw [rulesAt_change_of_ne hother]
    rcases maker_change hmaker with ⟨hbefore, -⟩ | ⟨rfl, -⟩
    · exact h.present _ _ _ hbefore
    · exact absurd rfl hother

lemma Orderly.fresh_change (h : Orderly m) (other : String)
    (hrules : (m.change account by_ after).rulesAt other hostname ≠ []) :
    Ledger.fresh IngressRule.key (m.change account by_ after).log other (some hostname, none)
      = true := by
  show Ledger.fresh IngressRule.key (m.log ++ [_]) other _ = true
  rw [fresh_changed, Bool.or_eq_true, decide_eq_true_iff]
  by_cases hother : other = account
  · subst hother
    rw [rulesAt_change] at hrules
    by_cases hbefore : m.rulesAt other hostname = []
    · exact .inr ⟨rfl, fun halike => hrules (halike.eq_nil.mp hbefore), hrules⟩
    · exact .inl (h.fresh _ _ hbefore)
  · rw [rulesAt_change_of_ne hother] at hrules
    exact .inl (h.fresh _ _ hrules)

lemma Orderly.own_change (h : Orderly m) : (m.change account by_ after).RemovesOwn := by
  intro past later account' name before after' hostname hlog hgone
  rcases List.split_snoc hlog with ⟨-, hevent, rfl⟩ | ⟨later', -, hsplit⟩
  · obtain ⟨rfl, rfl, rfl, rfl⟩ := Event.changed.inj hevent
    obtain ⟨r, hr, -⟩ := hgone
    exact h.fresh _ _ (List.ne_nil_of_mem hr)
  · exact h.own past later' account' name before after' hostname hsplit hgone

/-- Whoever changes the rules but a start leaves the shares and the tasks as they were. -/
lemma Orderly.change (h : Orderly m) (hstart : ∀ name, by_ ≠ .start name) :
    Orderly (m.change account by_ after) := by
  have hmaker : ∀ other hostname name,
      (m.change account by_ after).maker other hostname = some (.start name) →
        m.maker other hostname = some (.start name) := by
    intro other hostname name hname
    rcases maker_change hname with ⟨hbefore, -⟩ | ⟨-, hby, -⟩
    · exact hbefore
    · exact absurd hby (hstart name)
  refine ⟨fun _ _ => h.present_change _, fun _ _ => h.fresh_change _, h.own_change, ?_, ?_,
    h.apart⟩
  · exact fun other hostname name hname => h.kept _ _ _ (hmaker _ _ _ hname)
  · intro j task hj
    have hsound := h.tasks j task hj
    cases task with
    | start share route stage =>
        exact ⟨hsound.1, hsound.2.1, fun hostname hname => hsound.2.2 hostname (hmaker _ _ _ hname)⟩
    | stop key stage rest =>
        exact fun hstage hostname hname => hsound hstage hostname (hmaker _ _ _ hname)
    | done => trivial

/-- A start that has its hostname to itself puts rules there, and only there. -/
lemma Orderly.change_start {name : String} {share : ShareRecord} {host : Hostname} (h : Orderly m)
    (hfree : m.Free (account, name)) (hrow : m.shares.find (account, name) = some share)
    (hparse : Hostname.parse name = .ok host)
    (helse : ∀ hostname, hostname ≠ host.asStr → SameItems (m.rulesAt account hostname)
      (Teitunnel.rulesAt after (some hostname, none))) :
    Orderly (m.change account (.start name) after) := by
  have hmaker : ∀ other hostname name',
      (m.change account (.start name) after).maker other hostname = some (.start name') →
        m.maker other hostname = some (.start name') ∨
          account = other ∧ name = name' ∧ hostname = host.asStr := by
    intro other hostname name' hname
    rcases maker_change hname with ⟨hbefore, -⟩ | ⟨hother, hby, -, hdiffer⟩
    · exact .inl hbefore
    · refine .inr ⟨hother, Maker.start.inj hby, ?_⟩
      by_contra hne
      exact hdiffer (helse hostname hne)
  refine ⟨fun _ _ => h.present_change _, fun _ _ => h.fresh_change _, h.own_change, ?_, ?_,
    h.apart⟩
  · intro other hostname name' hname
    rcases hmaker other hostname name' hname with hbefore | ⟨rfl, rfl, rfl⟩
    · exact h.kept _ _ _ hbefore
    · exact ⟨share, host, hrow, hparse, rfl⟩
  · intro j task hj
    have hsound := h.tasks j task hj
    have hother := hfree task (List.mem_of_getElem? hj)
    cases task with
    | start share' route stage =>
        refine ⟨hsound.1, hsound.2.1, fun hostname hname => ?_⟩
        rcases hmaker _ hostname _ hname with hbefore | ⟨hacc, hname, -⟩
        · exact hsound.2.2 hostname hbefore
        · exact hother (congrArg some (Prod.ext hacc.symm hname.symm))
    | stop key stage rest =>
        rintro rfl hostname hname
        rcases hmaker _ hostname _ hname with hbefore | ⟨hacc, hname, -⟩
        · exact hsound rfl hostname hbefore
        · exact hother (congrArg some (Prod.ext hacc.symm hname.symm))
    | done => trivial

/-! ## Remembering and forgetting -/

/-- A share is remembered. -/
lemma Orderly.insert (h : Orderly m) (key : ShareKey) (share : ShareRecord) :
    Orderly { m with shares := m.shares.insert key share } := by
  have hfind : ∀ key', (m.shares.find key').isSome →
      ((m.shares.insert key share).find key').isSome := by
    intro key' hsome
    by_cases hkey : key' = key
    · rw [hkey, Table.find_insert_self]
      rfl
    · rwa [Table.find_insert_of_ne hkey]
  refine ⟨h.present, h.fresh, h.own, ?_, ?_, h.apart⟩
  · intro account hostname name hname
    obtain ⟨old, host, hold, hparse, hhost⟩ := h.kept _ _ _ hname
    obtain ⟨share', hshare'⟩ := Option.isSome_iff_exists.mp
      (hfind _ (Option.isSome_iff_exists.mpr ⟨old, hold⟩))
    exact ⟨share', host, hshare', hparse, hhost⟩
  · intro j task hj
    have hsound := h.tasks j task hj
    cases task with
    | start share' route stage =>
        exact ⟨hsound.1, fun fingerprint hstage => hfind _ (hsound.2.1 fingerprint hstage),
          hsound.2.2⟩
    | stop => exact hsound
    | done => trivial

/-- A share of which no start put the rules that are there may be forgotten. -/
lemma Orderly.forgetShare (h : Orderly m) (hfree : m.Free key)
    (hmaker : ∀ hostname, m.maker key.1 hostname ≠ some (.start key.2)) (written : Bool) :
    Orderly (m.forgetShare key written) := by
  cases written with
  | false => exact h
  | true =>
      refine ⟨h.present, h.fresh, h.own, ?_, ?_, h.apart⟩
      · intro account hostname name hname
        obtain ⟨share, host, hshare, hrest⟩ := h.kept _ _ _ hname
        refine ⟨share, host, ?_, hrest⟩
        have hne : (account, name) ≠ key := by
          rintro rfl
          exact hmaker hostname hname
        show (m.shares.erase key).find (account, name) = some share
        rwa [Table.find_erase_of_ne hne]
      · intro j task hj
        have hsound := h.tasks j task hj
        cases task with
        | start share route stage =>
            refine ⟨hsound.1, fun fingerprint hstage => ?_, hsound.2.2⟩
            have hne : share.key ≠ key := fun heq =>
              hfree _ (List.mem_of_getElem? hj) (congrArg some heq)
            show ((m.shares.erase key).find share.key).isSome
            rw [Table.find_erase_of_ne hne]
            exact hsound.2.1 fingerprint hstage
        | stop => exact hsound
        | done => trivial

/-! ## Each step -/

/-- A start is marked at a hostname without rules. -/
lemma Orderly.mark (h : Orderly m) (hrules : m.rulesAt account hostname = []) :
    Orderly { m with log := m.log ++ [.marked account (some hostname, none)] } := by
  have hmaker : ∀ account' hostname', DomainShares.maker
      { m with log := m.log ++ [.marked account (some hostname, none)] } account' hostname' =
        m.maker account' hostname' := fun _ _ => standing_marked
  refine ⟨?_, ?_, ?_, ?_, ?_, h.apart⟩
  · intro account' hostname' by_ hname
    rw [hmaker] at hname
    exact h.present account' hostname' by_ hname
  · intro account' hostname' hrules'
    have hfresh := h.fresh account' hostname' hrules'
    show Ledger.fresh IngressRule.key (m.log ++ [_]) _ _ = true
    rw [fresh_marked, hfresh, Bool.true_and, Bool.not_eq_true', decide_eq_false_iff_not]
    rintro ⟨rfl, hplace⟩
    rw [Prod.mk.injEq, Option.some.injEq] at hplace
    obtain ⟨rfl, -⟩ := hplace
    exact hrules' hrules
  · intro past later account' name before after hostname' hlog hgone
    rcases List.split_snoc hlog with ⟨-, hevent, -⟩ | ⟨later', -, hsplit⟩
    · cases hevent
    · exact h.own past later' account' name before after hostname' hsplit hgone
  · intro account' hostname' name hname
    rw [hmaker] at hname
    exact h.kept account' hostname' name hname
  · intro j task hj
    have hsound := h.tasks j task hj
    cases task with
    | start share route stage =>
        refine ⟨hsound.1, hsound.2.1, fun hostname' hname => ?_⟩
        rw [hmaker] at hname
        exact hsound.2.2 hostname' hname
    | stop key stage rest =>
        intro hstage hostname' hname
        rw [hmaker] at hname
        exact hsound hstage hostname' hname
    | done => trivial

/-- A task begins that is about a share nothing else is about. -/
lemma Orderly.push (h : Orderly m) (hsound : m.Sound task)
    (hfree : ∀ key, task.holds = some key → m.Free key) :
    Orderly { m with tasks := m.tasks ++ [task] } := by
  refine ⟨h.present, h.fresh, h.own, h.kept, ?_, ?_⟩
  · intro j task' hj
    rcases List.getElem?_snoc_eq_some hj with ⟨-, rfl⟩ | ⟨-, hj⟩
    · exact hsound
    · exact h.tasks j task' hj
  · intro j k task₁ task₂ key hj hk hkey₁ hkey₂
    rcases List.getElem?_snoc_eq_some hj with ⟨rfl, rfl⟩ | ⟨-, hold₁⟩ <;>
      rcases List.getElem?_snoc_eq_some hk with ⟨rfl, rfl⟩ | ⟨-, hold₂⟩
    · rfl
    · exact absurd hkey₂ (hfree key hkey₁ task₂ (List.mem_of_getElem? hold₂))
    · exact absurd hkey₁ (hfree key hkey₂ task₁ (List.mem_of_getElem? hold₁))
    · exact h.apart j k task₁ task₂ key hold₁ hold₂ hkey₁ hkey₂

/-- What a start goes on with. -/
lemma accept_ok {request : ShareRequest} {seen : Option Snapshot} {route : RouteSpec}
    {fingerprint : String} (h : accept request seen = .ok (route, fingerprint)) (account : String)
    (now : ℕ) :
    Hostname.parse (request.share account now).hostname = .ok route.hostname ∧
      route.path = none := by
  unfold accept at h
  simp only [bind_eq_ok, pure_eq_ok, Prod.mk.injEq] at h
  obtain ⟨route', hroute, -, -, -, -, rfl, -⟩ := h
  obtain ⟨hparse, hpath⟩ := toSpec_ok hroute
  exact ⟨hparse, (Except.ok.inj hpath).symm⟩

/-- No rule was put there by a start of the name, when its hostname has none. -/
lemma Orderly.maker_ne {name : String} {host : Hostname} (h : Orderly m)
    (hparse : Hostname.parse name = .ok host) (hrules : m.rulesAt account host.asStr = [])
    (hostname : String) : m.maker account hostname ≠ some (.start name) := by
  intro hname
  obtain ⟨-, host', -, hhost', rfl⟩ := h.kept _ _ _ hname
  rw [hparse] at hhost'
  cases hhost'
  exact h.present _ _ _ hname hrules

lemma Orderly.start (h : Orderly m) {now : ℕ} {request : ShareRequest}
    {seen : Option Snapshot} (hcareful : m.Careful (.start account now request seen)) :
    Orderly (m.start account now request seen) := by
  unfold DomainShares.start
  cases haccept : accept request seen with
  | error e => exact h
  | ok accepted =>
      obtain ⟨route, fingerprint⟩ := accepted
      obtain ⟨hrules, hfree⟩ := hcareful route fingerprint haccept
      obtain ⟨hparse, hpath⟩ := accept_ok haccept account now
      have hsound : m.Sound (.start (request.share account now) route (.previewed fingerprint)) :=
        ⟨⟨hparse, hpath⟩, fun _ hstage => StartStage.noConfusion hstage,
          h.maker_ne hparse hrules⟩
      have hpushed := h.push hsound fun key hkey => Option.some.inj hkey ▸ hfree
      exact hpushed.mark hrules

lemma Orderly.record {share : ShareRecord} {route : RouteSpec} {fingerprint : String}
    (h : Orderly m) (hi : m.tasks[i]? = some (.start share route (.previewed fingerprint)))
    (written : Bool) : Orderly (m.record i share route fingerprint written) := by
  have hsound := h.tasks _ _ hi
  cases written with
  | false => exact h.goOn hi trivial fun _ hkey => nomatch hkey
  | true =>
      refine (h.insert share.key share).goOn hi ⟨hsound.1, fun _ _ => ?_, hsound.2.2⟩
        fun _ hkey => hkey
      show ((m.shares.insert share.key share).find share.key).isSome
      rw [Table.find_insert_self]
      rfl

omit [External] in
/-- A start after which the rules are those of before leaves nothing that it put there. -/
lemma maker_change_alike {name : String}
    (hnone : ∀ hostname, m.maker account hostname ≠ some (.start name))
    (halike : ∀ hostname, SameItems (m.rulesAt account hostname)
      (Teitunnel.rulesAt after (some hostname, none))) (hostname : String) :
    (m.change account (.start name) after).maker account hostname ≠ some (.start name) := by
  intro hname
  rcases maker_change hname with ⟨hbefore, -⟩ | ⟨-, -, -, hdiffer⟩
  · exact hnone hostname hbefore
  · exact hdiffer (halike hostname)

lemma Orderly.applyStart {share : ShareRecord} {route : RouteSpec} {fingerprint : String}
    {seen : Option Snapshot} {ending : Ending} (h : Orderly m)
    (hi : m.tasks[i]? = some (.start share route (.recorded fingerprint)))
    (hsees : m.Sees share.accountId seen)
    (hcareful : m.Careful (.applyStart i seen ending)) :
    Orderly (m.applyStart i share route fingerprint seen ending) := by
  obtain ⟨⟨hparse, hpath⟩, hrow, hnone⟩ := h.tasks _ _ hi
  obtain ⟨row, hrow⟩ := Option.isSome_iff_exists.mp (hrow fingerprint rfl)
  unfold DomainShares.applyStart
  cases happly : Engine.apply (.addRoute route) ⟨fingerprint, false⟩ ending seen with
  | error e =>
      exact h.goOn hi ⟨⟨hparse, hpath⟩, fun _ hstage => StartStage.noConfusion hstage, hnone⟩
        fun _ hkey => hkey
  | ok after =>
      obtain ⟨s, p, rfl, hplan, rfl⟩ := apply_ok happly
      have hingress : s.ingress = m.ingress share.accountId := hsees s rfl
      have hkey : route.toRule.key = (some route.hostname.asStr, none) := by
        show (_, route.path.map PathRule.asStr) = _
        rw [hpath]
        rfl
      have helse : ∀ hostname, hostname ≠ route.hostname.asStr →
          SameItems (m.rulesAt share.accountId hostname)
            (Teitunnel.rulesAt (ending.ingress s p) (some hostname, none)) := by
        intro hostname hne
        rw [rulesAt, Tunnels.rulesAt, ← hingress]
        refine addRoute_elsewhere hplan ending (Option.some_ne_none _) ?_
        rw [hkey]
        rintro ⟨⟩
        exact hne rfl
      -- the task lets go of the share, the rules change, and the task goes on
      have hdone : Orderly (m.goto i .done) := h.goOn hi trivial fun _ hheld => nomatch hheld
      have hfree : (m.goto i .done).Free share.key :=
        h.free_goto hi rfl fun hheld => nomatch hheld
      have hchange := hdone.change_start hfree hrow hparse helse
      have htask : Orderly (((m.goto i .done).change share.accountId (.start share.hostname)
          (ending.ingress s p)).goto i (afterStart share route ending)) := by
        refine hchange.goto ?_ ?_
        · have hfailed : (∀ hostname, SameItems (m.rulesAt share.accountId hostname)
              (Teitunnel.rulesAt (ending.ingress s p) (some hostname, none))) →
              Sound (m.change share.accountId (.start share.hostname) (ending.ingress s p))
                (.start share route .failed) := fun halike =>
            ⟨⟨hparse, hpath⟩, fun _ hstage => StartStage.noConfusion hstage,
              maker_change_alike hnone halike⟩
          cases ending with
          | applied | cut => trivial
          | rolledBack =>
              refine hfailed fun hostname => ?_
              rw [rulesAt, Tunnels.rulesAt, ← hingress]
              exact SameItems.refl _
          | partiallyApplied ran =>
              refine hfailed fun hostname => ?_
              by_cases hhost : hostname = route.hostname.asStr
              · rw [hhost]
                exact hcareful share route fingerprint _ hi happly
              · exact helse hostname hhost
        · intro j other key hne hj hheld
          have hkey : key = share.key := by
            cases ending with
            | applied | cut => cases hheld
            | rolledBack | partiallyApplied => exact (Option.some.inj hheld).symm
          rw [hkey]
          exact hfree other (List.mem_of_getElem? hj)
      rwa [DomainShares.goto, DomainShares.change, DomainShares.goto, List.set_set] at htask

lemma Orderly.forgetStart {share : ShareRecord} {route : RouteSpec} (h : Orderly m)
    (hi : m.tasks[i]? = some (.start share route .failed)) (written : Bool) :
    Orderly ((m.forgetShare share.key written).goto i .done) := by
  have hnone := (h.tasks _ _ hi).2.2
  have hdone : Orderly (m.goto i .done) := h.goOn hi trivial fun _ hheld => nomatch hheld
  have hfree : (m.goto i .done).Free share.key :=
    h.free_goto hi rfl fun hheld => nomatch hheld
  have hforgot := hdone.forgetShare hfree hnone written
  cases written <;> exact hforgot

/-! ### Stops -/

omit [External] in
lemma next_holds (rest : List ShareKey) : (Task.next rest).holds = none := by
  cases rest <;> rfl

lemma sound_next (m : DomainShares) (rest : List ShareKey) : m.Sound (.next rest) := by
  cases rest with
  | nil => trivial
  | cons key rest => exact fun hstage => StopStage.noConfusion hstage

/-- A task that is about nothing any more lets go. -/
lemma Orderly.letGo (h : Orderly m) (hsound : m.Sound task) (hholds : task.holds = none) :
    Orderly (m.goto i task) := by
  refine h.goto hsound fun _ _ key _ _ hkey => ?_
  rw [hholds] at hkey
  cases hkey

lemma removal_ok {name : String} {intent : Intent} (h : removal name = .ok intent) :
    ∃ host, Hostname.parse name = .ok host ∧ parseHostname name = .ok host ∧
      intent = .removeRoute host none := by
  unfold removal at h
  simp only [bind_eq_ok, pure_eq_ok] at h
  obtain ⟨host, hparse, rfl⟩ := h
  refine ⟨host, ?_, hparse, rfl⟩
  unfold parseHostname at hparse
  exact mapError_eq_ok.mp hparse

lemma removal_error {name : String} {e : EngineError} (h : removal name = .error e) :
    isGone e = false := by
  unfold removal at h
  rcases bind_eq_error.mp h with hparse | ⟨_, -, hrest⟩
  · unfold parseHostname at hparse
    obtain ⟨_, -, rfl⟩ := mapError_eq_error.mp hparse
    rfl
  · cases hrest

omit [External] in
lemma isGone_eq_true {e : EngineError} (h : isGone e = true) :
    ∃ error, e = .plan error ∧ error.isGone = true := by
  cases e with
  | plan error => exact ⟨error, rfl, h⟩
  | _ => cases h

/-- After an error a stop forgets its share where the route is gone. -/
lemma Orderly.afterError {rest : List ShareKey} {e : EngineError} (h : Orderly m)
    (hapart : ∀ (j : ℕ) (other : Task), j ≠ i → m.tasks[j]? = some other →
      other.holds ≠ some key)
    (hgone : isGone e = true → ∀ hostname, m.maker key.1 hostname ≠ some (.start key.2)) :
    Orderly (m.goto i (afterError key rest e)) := by
  unfold DomainShares.afterError
  split_ifs with he
  · refine h.goto (fun _ => hgone he) fun j other key' hne hj hkey => ?_
    cases hkey
    exact hapart j other hne hj
  · exact h.letGo (sound_next m rest) (next_holds rest)

lemma Orderly.previewStop {rest : List ShareKey} {seen : Option Snapshot} (h : Orderly m)
    (hi : m.tasks[i]? = some (.stop key .waiting rest))
    (hcareful : m.Careful (.previewStop i seen)) :
    Orderly (m.previewStop i key rest seen) := by
  obtain ⟨hfree, hgone⟩ := hcareful key rest hi
  have hapart : ∀ (j : ℕ) (other : Task), j ≠ i → m.tasks[j]? = some other →
      other.holds ≠ some key := fun _ other _ hj => hfree other (List.mem_of_getElem? hj)
  unfold DomainShares.previewStop
  split
  · refine h.goto (fun hstage => StopStage.noConfusion hstage) fun j other key' hne hj hkey => ?_
    cases hkey
    exact hapart j other hne hj
  · rename_i e hpreview
    refine h.afterError hapart fun he => ?_
    rcases bind_eq_error.mp hpreview with hparse | ⟨intent, hintent, hpreview⟩
    · rw [removal_error hparse] at he
      cases he
    · obtain ⟨host, hparse, hhost, rfl⟩ := removal_ok hintent
      exact h.maker_ne hparse (hgone host e hhost hpreview he)

lemma Orderly.applyStop {fingerprint : String} {rest : List ShareKey} {seen : Option Snapshot}
    {ending : Ending} (h : Orderly m)
    (hi : m.tasks[i]? = some (.stop key (.previewed fingerprint) rest))
    (hsees : m.Sees key.1 seen) : Orderly (m.applyStop i key fingerprint rest seen ending) := by
  have hapart : ∀ (j : ℕ) (other : Task), j ≠ i → m.tasks[j]? = some other →
      other.holds ≠ some key := fun j other hne hj hother => hne (h.apart _ _ _ _ key hj hi hother rfl)
  unfold DomainShares.applyStop
  split
  · rename_i after happly
    obtain ⟨intent, hintent, happly⟩ := bind_eq_ok.mp happly
    obtain ⟨host, hparse, -, rfl⟩ := removal_ok hintent
    obtain ⟨s, p, rfl, hplan, rfl⟩ := apply_ok happly
    have hchange : Orderly (m.change key.1 (.stop key.2) (ending.ingress s p)) :=
      h.change fun _ hby => Maker.noConfusion hby
    cases ending with
    | applied =>
        refine hchange.goto (fun _ => hchange.maker_ne hparse ?_) fun j other key' hne hj hkey => ?_
        · rw [rulesAt_change]
          exact removeRoute_applied hplan
        · cases hkey
          exact hapart j other hne hj
    | cut ran => exact hchange.letGo trivial rfl
    | rolledBack | partiallyApplied ran =>
        exact hchange.letGo (sound_next _ rest) (next_holds rest)
  · rename_i e happly
    refine h.afterError hapart fun he => ?_
    rcases bind_eq_error.mp happly with hparse | ⟨intent, hintent, happly⟩
    · rw [removal_error hparse] at he
      cases he
    · obtain ⟨host, hparse, -, rfl⟩ := removal_ok hintent
      obtain ⟨error, rfl, herror⟩ := isGone_eq_true he
      obtain ⟨s, rfl, hplan⟩ := apply_error happly
      refine h.maker_ne hparse ?_
      rw [rulesAt, Tunnels.rulesAt, ← hsees s rfl]
      exact removeRoute_gone hplan herror

lemma Orderly.forgetStop {rest : List ShareKey} (h : Orderly m)
    (hi : m.tasks[i]? = some (.stop key .gone rest)) (written : Bool) :
    Orderly ((m.forgetShare key written).goto i (.next rest)) := by
  have hnone := h.tasks _ _ hi rfl
  have hnext : Orderly (m.goto i (.next rest)) :=
    h.letGo (sound_next m rest) (next_holds rest)
  have hfree : (m.goto i (.next rest)).Free key := by
    refine h.free_goto hi rfl ?_
    rw [next_holds]
    exact (Option.some_ne_none key).symm
  have hforgot := hnext.forgetShare hfree hnone written
  cases written <;> exact hforgot

/-! ## Every run -/

lemma Orderly.outside {intent : Intent} {approval : Approval} {seen : Option Snapshot}
    {ending : Ending} {t : DomainShares} (h : Orderly m)
    (hstep : m.step (.outside account intent approval seen ending) = some t) : Orderly t := by
  unfold DomainShares.step at hstep
  dsimp only at hstep
  split_ifs at hstep
  split at hstep
  · rw [← Option.some.inj hstep]
    exact h.change fun _ hby => Maker.noConfusion hby
  · rw [← Option.some.inj hstep]
    exact h

lemma Orderly.step {a : Step} (h : Orderly m) (hcareful : m.Careful a)
    (hstep : m.step a = some m') : Orderly m' := by
  cases a with
  | outside account intent approval seen ending => exact h.outside hstep
  | start account now request seen =>
      rw [← Option.some.inj hstep]
      exact h.start hcareful
  | stop account hostname =>
      rw [← Option.some.inj hstep]
      exact h.push (fun hstage => StopStage.noConfusion hstage) fun _ hkey => nomatch hkey
  | sweep isOver =>
      rw [← Option.some.inj hstep]
      refine h.push (sound_next m _) fun _ hkey => ?_
      rw [next_holds] at hkey
      cases hkey
  | crash i =>
      rw [← Option.some.inj hstep]
      exact h.letGo trivial rfl
  | record i written =>
      unfold DomainShares.step at hstep
      dsimp only at hstep
      split at hstep
      · rename_i hi
        rw [← Option.some.inj hstep]
        exact h.record hi written
      · cases hstep
  | applyStart i seen ending =>
      unfold DomainShares.step at hstep
      dsimp only at hstep
      split at hstep
      · rename_i hi
        split_ifs at hstep with hsees
        rw [← Option.some.inj hstep]
        exact h.applyStart hi hsees hcareful
      · cases hstep
  | forgetStart i written =>
      unfold DomainShares.step at hstep
      dsimp only at hstep
      split at hstep
      · rename_i hi
        rw [← Option.some.inj hstep]
        exact h.forgetStart hi written
      · cases hstep
  | skip i =>
      unfold DomainShares.step at hstep
      dsimp only at hstep
      split at hstep
      · rw [← Option.some.inj hstep]
        exact h.letGo (sound_next m _) (next_holds _)
      · cases hstep
  | previewStop i seen =>
      unfold DomainShares.step at hstep
      dsimp only at hstep
      split at hstep
      · rename_i hi
        rw [← Option.some.inj hstep]
        exact h.previewStop hi hcareful
      · cases hstep
  | applyStop i seen ending =>
      unfold DomainShares.step at hstep
      dsimp only at hstep
      split at hstep
      · rename_i hi
        split_ifs at hstep with hsees
        rw [← Option.some.inj hstep]
        exact h.applyStop hi hsees
      · cases hstep
  | forgetStop i written =>
      unfold DomainShares.step at hstep
      dsimp only at hstep
      split at hstep
      · rename_i hi
        rw [← Option.some.inj hstep]
        exact h.forgetStop hi written
      · cases hstep

/-- Before any share was started, whatever the tunnels route. -/
def before (ingress : String → Option (List IngressRule)) : DomainShares where
  ingress := ingress
  shares := .empty
  tasks := []
  log := []

section alone

variable {now : ℕ} {request : ShareRequest} {route : RouteSpec} {s : Snapshot} {p : Plan}
  {ingress : String → Option (List IngressRule)} {ending : Ending}

/-- The state after a start, end to end. -/
def started (account : String) (now : ℕ) (request : ShareRequest) (route : RouteSpec)
    (s : Snapshot) (p : Plan) (ending : Ending) : DomainShares where
  ingress := Function.update (fun _ => s.ingress) account (ending.ingress s p)
  shares := Table.empty.insert (request.share account now).key (request.share account now)
  tasks := [afterStart (request.share account now) route ending]
  log := [.marked account (some route.hostname.asStr, none),
    .changed account (.start (request.share account now).hostname) (s.ingress.getD [])
      ((ending.ingress s p).getD [])]

lemma start_eq {fingerprint : String}
    (haccept : accept request (some s) = .ok (route, fingerprint)) :
    m.start account now request (some s) =
      { m with
        tasks := m.tasks ++ [.start (request.share account now) route (.previewed fingerprint)]
        log := m.log ++ [.marked account (some route.hostname.asStr, none)] } := by
  unfold DomainShares.start
  rw [haccept]

/-- The state after the stop of a share, end to end. -/
def stopped (m : DomainShares) (account name : String) (s : Snapshot) (p : Plan) :
    DomainShares :=
  { m with
    ingress := Function.update m.ingress account (Ending.applied.ingress s p)
    shares := m.shares.erase (account, name)
    tasks := m.tasks ++ [.done]
    log := m.log ++ [.changed account (.stop name) ((m.ingress account).getD [])
      ((Ending.applied.ingress s p).getD [])] }

end alone

end DomainShares

/-! ### A share of one account -/

namespace DomainShares

section reference

local instance sharesReference : External := reference

/-- Its route. -/
def appShareRoute : RouteSpec := { appRoute none with id := routeId appHostname none }

/-- The account once the route is there. -/
def sharingAccount : Snapshot :=
  { newAccount with
    tunnel := some ⟨"tunnel", "machine", 1, sortIngress [appShareRoute.toRule]⟩ }

lemma appShare_parse : Hostname.parse "app.example.com" = .ok appHostname := by
  decide +kernel

end reference

end DomainShares

end Teitunnel.Sharing
