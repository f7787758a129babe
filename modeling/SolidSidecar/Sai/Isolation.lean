import SolidSidecar.Run.Machine
import SolidSidecar.Sai.Service

/-!
# Isolation of users

What the storage lists for a user should depend on the requests of that user only. The proof compares
a run with the run without the requests of others, table by table: the values of the user are the
same in both (`Table.SameFor`), because every operation puts values under one user, the one its body
names. That is the user who is authenticated only if the request says so.
-/

namespace Sai
open Go List Option Table GoMap Body

variable {α : Type}

namespace Table

variable {k : Kind α} {t t' : Table α}

/-- Every id is filed under the user of its value, and its value carries it. -/
structure Filed (k : Kind α) (t : Table α) : Prop where
  pointed : ∀ id r, t.values.lookup id = some r → (t.heap.read r).isSome = true
  named : t.values.lookup [] = none
  filed : ∀ user, ∀ id ∈ t.index user, ∃ v, t.stored id = some v ∧ k.user v = user ∧ k.id v = id

/-- Two tables have the same for a user, and one has no ids that the other does not have. -/
structure SameFor (u : Str) (t t' : Table α) : Prop where
  index : t.index u = t'.index u
  stored : ∀ id ∈ t.index u, t.stored id = t'.stored id
  sub : ∀ id, t.values.lookup id = none → t'.values.lookup id = none

/-- The id of a value is free, or that of a value of the same user. -/
def Vacant (k : Kind α) (t : Table α) (v : α) : Prop :=
  ∀ w, t.stored (k.id v) = some w → k.user w = k.user v

def putOpt (k : Kind α) (t : Table α) : Option α → Table α
  | none => t
  | some v => (t.put k v).1

variable {id u user : Str}

theorem stored_none (free : t.values.lookup id = none) : t.stored id = none := by
  rw [stored, free]
  rfl

theorem SameFor.refl (u : Str) (t : Table α) : SameFor u t t := ⟨rfl, fun _ _ => rfl, fun _ free => free⟩

theorem Filed.empty (k : Kind α) : Filed k {} := by
  constructor <;> simp [index]

theorem Filed.ne_nil {v} (filed : t.Filed k) (stored : t.stored id = some v) : id ≠ [] := by
  rintro rfl
  rw [stored_none filed.named] at stored
  cases stored

theorem Vacant.of_free {v} (free : t.values.lookup (k.id v) = none) : t.Vacant k v := by
  intro w stored
  rw [stored_none free] at stored
  cases stored

variable (filed : t.Filed k) (indexed : k.indexed = true)

section Put

variable {v : α} (named : k.id v ≠ [])

include named

/-- A put with an id: the value is stored under it and filed under its user. -/
theorem put_eq :
    t.put k v = ({
      heap := (t.heap.alloc v).1
      values := t.values.insert (k.id v) (t.heap.alloc v).2
      byUser := t.withIndexed k (k.user v) (k.id v) }, none) := by
  simp [put, store, named, withIndexed, index]

theorem lookup_put_none : (t.put k v).1.values.lookup id = none ↔ id ≠ k.id v ∧ t.values.lookup id = none := by
  rw [put_eq named]
  simp only [lookup_insert_eq]
  split_ifs with same <;> simp [same]

include filed in
theorem stored_put (id : Str) : (t.put k v).1.stored id = if id = k.id v then some v else t.stored id := by
  rw [put_eq named]
  simp only [stored, GoMap.lookup_insert_eq]
  split_ifs
  · exact t.heap.read_alloc v
  · cases found : t.values.lookup id with
    | none => rfl
    | some r =>
      obtain ⟨w, old⟩ := isSome_iff_exists.mp (filed.pointed id r found)
      rw [bind_some, bind_some, old, t.heap.extends_alloc v r w old]

include indexed in
theorem index_put (user : Str) : (t.put k v).1.index user =
      if user = k.user v then t.index (k.user v) ++ [k.id v] else t.index user := by
  rw [put_eq named]
  exact index_withIndexed indexed (k.user v) user (k.id v)

include filed indexed

theorem Filed.put (vacant : t.Vacant k v) : (t.put k v).1.Filed k := by
  constructor
  · intro id r found
    rw [put_eq named] at found ⊢
    simp only [lookup_insert_eq] at found
    split_ifs at found
    · cases found
      simp
    · obtain ⟨w, old⟩ := isSome_iff_exists.mp (filed.pointed id r found)
      exact isSome_iff_exists.mpr ⟨w, t.heap.extends_alloc v r w old⟩
  · exact (lookup_put_none named).mpr ⟨named.symm, filed.named⟩
  · intro user id mem
    rw [index_put indexed named] at mem
    rw [stored_put filed named]
    by_cases new : id = k.id v
    · refine ⟨v, if_pos new, ?_, new.symm⟩
      by_cases own : user = k.user v
      · exact own.symm
      · -- an id that was filed under another user was stored with that user
        rw [if_neg own] at mem
        obtain ⟨w, stored, user', _⟩ := filed.filed user id mem
        exact absurd (user'.symm.trans (vacant w (new ▸ stored))) own
    · rw [if_neg new]
      split_ifs at mem with own
      · rcases mem_append.mp mem with old | here
        · exact own ▸ filed.filed _ id old
        · exact absurd (mem_singleton.mp here) new
      · exact filed.filed user id mem

/-- A value of another user does not concern the user. -/
theorem SameFor.put_other (same : SameFor u t t') (vacant : t.Vacant k v) (other : k.user v ≠ u) :
    SameFor u (t.put k v).1 t' := by
  have index : (t.put k v).1.index u = t.index u := by
    rw [index_put indexed named, if_neg (Ne.symm other)]
  refine ⟨index.trans same.index, fun id mem => ?_, fun id free => ?_⟩
  · rw [index] at mem
    have apart : id ≠ k.id v := by
      rintro rfl
      obtain ⟨w, stored, user, _⟩ := filed.filed u _ mem
      exact other ((vacant w stored).symm.trans user)
    rw [stored_put filed named, if_neg apart]
    exact same.stored id mem
  · exact same.sub id ((lookup_put_none named).mp free).2

theorem SameFor.put_both (same : SameFor (k.user v) t t') (filed' : t'.Filed k) :
    SameFor (k.user v) (t.put k v).1 (t'.put k v).1 := by
  refine ⟨?_, fun id mem => ?_, fun id free => ?_⟩
  · rw [index_put indexed named, index_put indexed named, if_pos rfl, if_pos rfl, same.index]
  · rw [index_put indexed named, if_pos rfl] at mem
    rw [stored_put filed named, stored_put filed' named]
    split_ifs with new
    · rfl
    · rcases mem_append.mp mem with old | here
      · exact same.stored id old
      · exact absurd (mem_singleton.mp here) new
  · obtain ⟨apart, absent⟩ := (lookup_put_none named).mp free
    exact (lookup_put_none named).mpr ⟨apart, same.sub id absent⟩

end Put

/-- Something to put that is named, of the user, and has no other user's id. -/
def Fits (k : Kind α) (user : Str) (t : Table α) (v : Option α) : Prop :=
  ∀ w ∈ v, k.id w ≠ [] ∧ k.user w = user ∧ t.Vacant k w

include filed indexed

/-- What a list call gives is what is stored under the ids of the user, copied. -/
theorem listed_eq (user : Str) : t.listed k user = (t.index user).map fun id => (t.stored id).map k.copied := by
  simp only [listed, list, indexed]
  exact read_copyAll (t.index user) filed.pointed

theorem SameFor.listed (same : SameFor u t t') (filed' : t'.Filed k) : t.listed k u = t'.listed k u := by
  rw [listed_eq filed indexed, listed_eq filed' indexed, ← same.index]
  exact map_congr_left fun id mem => by rw [same.stored id mem]

theorem Filed.putOpt {v} (fits : t.Fits k user v) : (t.putOpt k v).Filed k := by
  cases v with
  | none => exact filed
  | some w =>
    obtain ⟨named, _, vacant⟩ := fits w rfl
    exact filed.put indexed named vacant

theorem SameFor.putOpt_other {v} (same : SameFor u t t') (fits : t.Fits k user v) (other : user ≠ u) :
    SameFor u (t.putOpt k v) t' := by
  cases v with
  | none => exact same
  | some w =>
    obtain ⟨named, rfl, vacant⟩ := fits w rfl
    exact same.put_other filed indexed named vacant other

theorem SameFor.putOpt_both {v} (same : SameFor u t t') (filed' : t'.Filed k) (fits : t.Fits k u v) :
    SameFor u (t.putOpt k v) (t'.putOpt k v) := by
  cases v with
  | none => exact same
  | some w =>
    obtain ⟨named, rfl, _⟩ := fits w rfl
    exact same.put_both filed indexed named filed'

end Table

variable (sha256 : Str → Str)

/-- What an operation puts into the tables that are indexed by user. -/
structure Effect where
  registration : Option ApplicationRegistration := none
  grant : Option AccessGrant := none
  data : Option DataRegistration := none

/-- The effect of a body, where the user it names has these registrations. -/
def Body.effect (body : Body) (moment : Moment) (registrations : List (Option ApplicationRegistration)) : Effect :=
  match body with
  | .applications (some req) =>
    if moment.contextError = false ∧ (validateRegisterApplicationRequest req).isOk = true ∧
        req.application.id ≠ [] then
      { registration := some (req.registration sha256 moment) }
    else {}
  | .grants (some req) =>
    if moment.contextError = false ∧ (validateCreateAccessGrantRequest req).isOk = true then {
      grant := some (req.accessGrant sha256 moment)
      registration := (findRegistration req.applicationID registrations).toOption.map
        (req.updatedRegistration sha256 moment (req.accessGrant sha256 moment).id) }
    else {}
  | .dataRegistrations (some req) =>
    if moment.contextError = false ∧ (validateRegisterDataRequest req).isOk = true ∧
        (storeDataInstances (req.instances sha256 moment) {}).2.isOk = true then
      { data := some (req.registration sha256 moment) }
    else {}
  | _ => {}

/-- One storage is the other after an effect, in the tables that are indexed by user. -/
structure Effect.Leads (e : Effect) (s s' : InMemorySAIStorage) : Prop where
  registrations : s'.applicationRegistrations =
    s.applicationRegistrations.putOpt applicationRegistrations e.registration
  grants : s'.accessGrants = s.accessGrants.putOpt accessGrants e.grant
  data : s'.dataRegistrations = s.dataRegistrations.putOpt dataRegistrations e.data

theorem Effect.Leads.refl (s : InMemorySAIStorage) : Leads {} s s := ⟨rfl, rfl, rfl⟩

variable (moment : Moment)

theorem newID_ne_nil (purpose : String) (n : Nat) : moment.newID sha256 purpose n ≠ [] := by
  simp only [Moment.newID, generateSAIID, append_assoc]
  exact append_ne_nil_of_left_ne_nil (by decide) _

theorem put_ok {k : Kind α} {t : Table α} {v} (named : k.id v ≠ []) : (t.put k v).2 = none := by
  rw [put_eq named]

/-- Reading the registrations of applications copies nothing. -/
theorem list_registrations (t : Table ApplicationRegistration) (user : Str) :
    (t.list applicationRegistrations default user).1 = t := by
  have kept : ∀ ids h,
      (copyAll applicationRegistrations t.values h ids).1 = h := by
    intro ids
    induction ids with
    | nil => exact fun _ => rfl
    | cons id rest ih =>
      intro h
      unfold copyAll
      split
      · exact ih h
      · exact ih _
  simp [list, kept]

theorem withGrantID_named (grant : DataGrant) (n : Nat) : (withGrantID sha256 moment grant n).id ≠ [] := by
  unfold withGrantID
  split_ifs with unnamed
  · exact newID_ne_nil sha256 moment _ n
  · exact unnamed

/-- Data grants with ids are stored, away from the tables that are indexed by user. -/
theorem storeDataGrants_eq (grants : List DataGrant) (named : ∀ g ∈ grants, g.id ≠ []) (s : InMemorySAIStorage) :
    ∃ t, storeDataGrants grants s = ({ s with dataGrants := t }, none) := by
  induction grants generalizing s with
  | nil => exact ⟨s.dataGrants, rfl⟩
  | cons g rest ih =>
    have stored : storeDataGrant g s = ({ s with dataGrants := (s.dataGrants.put dataGrants g).1 }, none) := by
      rw [storeDataGrant, put_ok (named g mem_cons_self)]
    obtain ⟨t, rest⟩ := ih (fun g' mem => named g' (mem_cons_of_mem _ mem))
      { s with dataGrants := (s.dataGrants.put dataGrants g).1 }
    refine ⟨t, ?_⟩
    rw [storeDataGrants, stored]
    exact rest

/-- The loop over data instances ends as it would on an empty storage, away from the tables. -/
theorem storeDataInstances_eq (instances : List (DataInstance × Nat)) (s s' : InMemorySAIStorage) :
    ∃ m, storeDataInstances instances s = ({ s with dataInstances := m }, (storeDataInstances instances s').2) := by
  induction instances generalizing s s' with
  | nil => exact ⟨s.dataInstances, rfl⟩
  | cons p rest ih =>
    obtain ⟨inst, _⟩ := p
    unfold storeDataInstances
    cases validateDataInstance inst with
    | error err => exact ⟨s.dataInstances, rfl⟩
    | ok _ =>
      unfold storeDataInstance
      split_ifs
      · exact ⟨s.dataInstances, rfl⟩
      · exact ih { s with dataInstances := s.dataInstances.insert inst.id inst }
          { s' with dataInstances := s'.dataInstances.insert inst.id inst }

theorem registerApplication_leads (req : RegisterApplicationRequest)
    (s : InMemorySAIStorage) (registrations : List (Option ApplicationRegistration)) :
    ((applications (some req)).effect sha256 moment registrations).Leads s
      (registerApplication sha256 moment req s).1 := by
  simp only [effect, registerApplication]
  cases moment.contextError with
  | true => simpa using .refl s
  | false =>
    cases validateRegisterApplicationRequest req with
    | error err => simpa [Except.toBool] using .refl s
    | ok _ =>
      by_cases unnamed : req.application.id = []
      · simpa [unnamed, storeApplication, Service.orFail] using .refl s
      · have stored : ∀ s : InMemorySAIStorage, (s.applicationRegistrations.put applicationRegistrations
              (req.registration sha256 moment)).2 = none :=
          fun s => put_ok (newID_ne_nil sha256 moment _ 0)
        simp only [unnamed, storeApplication, storeApplicationRegistration, stored, ne_eq]
        exact ⟨rfl, rfl, rfl⟩

theorem updatedRegistration_named {req : CreateAccessGrantRequest} {moment grantID}
    {found : Option ApplicationRegistration} (named : ∀ reg ∈ found, reg.id ≠ []) :
    (req.updatedRegistration sha256 moment grantID found).id ≠ [] := by
  cases found with
  | none => exact newID_ne_nil sha256 moment _ 0
  | some reg => exact named reg rfl

variable {reg : ApplicationRegistration}

theorem findRegistration_mem {applicationID l} (found : findRegistration applicationID l = .ok (some reg)) :
    some reg ∈ l := by
  induction l with
  | nil => cases found
  | cons first rest ih =>
    cases first with
    | none => cases found
    | some other =>
      unfold findRegistration at found
      split_ifs at found
      · cases found
        exact mem_cons_self
      · exact mem_cons_of_mem _ (ih found)

/-- What is listed is stored, under its id and its user. -/
theorem mem_listed {t : Table ApplicationRegistration} (filed : t.Filed applicationRegistrations) {user}
    (mem : some reg ∈ t.listed applicationRegistrations user) :
    t.stored reg.id = some reg ∧ reg.registeredBy = user := by
  rw [listed_eq filed rfl] at mem
  obtain ⟨id, filedUnder, here⟩ := mem_map.mp mem
  obtain ⟨_, stored, owner, named⟩ := filed.filed user id filedUnder
  rw [stored] at here
  cases here
  refine ⟨?_, owner⟩
  rw [← named] at stored
  exact stored

theorem createAccessGrant_leads (req : CreateAccessGrantRequest)
    {s} (filed : s.applicationRegistrations.Filed applicationRegistrations) :
    ((grants (some req)).effect sha256 moment
      (s.applicationRegistrations.listed applicationRegistrations req.userID)).Leads s
      (createAccessGrant sha256 moment req s).1 := by
  simp only [effect, createAccessGrant]
  cases moment.contextError with
  | true => simpa using .refl s
  | false =>
    cases validateCreateAccessGrantRequest req with
    | error err => simpa [Except.toBool] using .refl s
    | ok _ =>
      generalize named : req.dataGrants.zipIdx.map _ = l
      obtain ⟨_, grants⟩ := storeDataGrants_eq l
        (by simp only [← named, List.mem_map]
            rintro _ ⟨p, _, rfl⟩
            exact withGrantID_named sha256 moment p.1 p.2) s
      have granted : (s.accessGrants.put accessGrants (req.accessGrant sha256 moment)).2 = none :=
        put_ok (newID_ne_nil sha256 moment _ 0)
      simp only [grants, Service.orFail, storeAccessGrant, granted,
        recordGrant, list_registrations]
      cases look : findRegistration req.applicationID
          _ with
      | error err => exact ⟨rfl, rfl, rfl⟩
      | ok found =>
        have updated : (s.applicationRegistrations.put applicationRegistrations
            (req.updatedRegistration sha256 moment (req.accessGrant sha256 moment).id found)).2 = none := by
          refine put_ok (updatedRegistration_named sha256 ?_)
          rintro _ rfl
          exact filed.ne_nil (mem_listed filed (findRegistration_mem look)).1
        simp only [storeApplicationRegistration, updated]
        exact ⟨rfl, rfl, rfl⟩

theorem registerData_leads (req : RegisterDataRequest) (s : InMemorySAIStorage)
    (registrations : List (Option ApplicationRegistration)) :
    ((Body.dataRegistrations (some req)).effect sha256 moment registrations).Leads s
      (registerData sha256 moment req s).1 := by
  simp only [effect, registerData]
  cases moment.contextError with
  | true => simpa using .refl s
  | false =>
    cases validateRegisterDataRequest req with
    | error err => simpa [Except.toBool] using .refl s
    | ok _ =>
      obtain ⟨_, stored⟩ := storeDataInstances_eq _ s {}
      rw [stored]
      cases (storeDataInstances _ {}).2 with
      | error err => simpa [Except.isOk] using ⟨rfl, rfl, rfl⟩
      | ok _ =>
        have registered : (s.dataRegistrations.put dataRegistrations
            (req.registration sha256 moment)).2 = none := put_ok (newID_ne_nil sha256 moment _ 0)
        simp only [storeDataRegistration, registered]
        exact ⟨rfl, rfl, rfl⟩

namespace InMemorySAIStorage

structure Filed (s : InMemorySAIStorage) : Prop where
  registrations : s.applicationRegistrations.Filed Sai.applicationRegistrations
  grants : s.accessGrants.Filed Sai.accessGrants
  data : s.dataRegistrations.Filed Sai.dataRegistrations

structure SameFor (u : Str) (s s' : InMemorySAIStorage) : Prop where
  registrations : s.applicationRegistrations.SameFor u s'.applicationRegistrations
  grants : s.accessGrants.SameFor u s'.accessGrants
  data : s.dataRegistrations.SameFor u s'.dataRegistrations

/-- The ids that a request may be given are not in use. -/
structure Unused (s : InMemorySAIStorage) (moment : Moment) : Prop where
  registration : s.applicationRegistrations.values.lookup (moment.newID sha256 "registration" 0) = none
  grant : s.accessGrants.values.lookup (moment.newID sha256 "access-grant" 0) = none
  data : s.dataRegistrations.values.lookup (moment.newID sha256 "data-registration" 0) = none

structure Fits (s : InMemorySAIStorage) (user : Str) (e : Effect) : Prop where
  registration : s.applicationRegistrations.Fits Sai.applicationRegistrations user e.registration
  grant : s.accessGrants.Fits Sai.accessGrants user e.grant
  data : s.dataRegistrations.Fits Sai.dataRegistrations user e.data

variable {sha256} {s s' t t' : InMemorySAIStorage} {u user : Str} {e : Effect} {moment : Moment}

theorem Unused.of_same (unused : s.Unused sha256 moment) (same : SameFor u s s') : s'.Unused sha256 moment :=
  ⟨same.registrations.sub _ unused.registration, same.grants.sub _ unused.grant, same.data.sub _ unused.data⟩

theorem Filed.leads (filed : s.Filed) (fits : s.Fits user e) (leads : e.Leads s t) : t.Filed where
  registrations := leads.registrations ▸ filed.registrations.putOpt rfl fits.registration
  grants := leads.grants ▸ filed.grants.putOpt rfl fits.grant
  data := leads.data ▸ filed.data.putOpt rfl fits.data

theorem SameFor.leads_other (same : SameFor u s s') (filed : s.Filed) (fits : s.Fits user e)
    (leads : e.Leads s t) (other : user ≠ u) : SameFor u t s' where
  registrations := leads.registrations ▸
    same.registrations.putOpt_other filed.registrations rfl fits.registration other
  grants := leads.grants ▸ same.grants.putOpt_other filed.grants rfl fits.grant other
  data := leads.data ▸ same.data.putOpt_other filed.data rfl fits.data other

theorem SameFor.leads_both (same : SameFor u s s') (filed : s.Filed) (filed' : s'.Filed)
    (fits : s.Fits u e) (leads : e.Leads s t) (leads' : e.Leads s' t') : SameFor u t t' where
  registrations := by
    rw [leads.registrations, leads'.registrations]
    exact same.registrations.putOpt_both filed.registrations rfl filed'.registrations fits.registration
  grants := by
    rw [leads.grants, leads'.grants]
    exact same.grants.putOpt_both filed.grants rfl filed'.grants fits.grant
  data := by
    rw [leads.data, leads'.data]
    exact same.data.putOpt_both filed.data rfl filed'.data fits.data

/-- The registrations of a user, as the service reads them. -/
def registrationsOf (s : InMemorySAIStorage) (user : Str) : List (Option ApplicationRegistration) :=
  s.applicationRegistrations.listed Sai.applicationRegistrations user

end InMemorySAIStorage

namespace Body

variable {sha256} {s s' : InMemorySAIStorage} {u user : Str} {moment : Moment} {body : Body}

theorem serve_none (nobody : body.userID = none) : (body.serve sha256 moment s).1 = s := by
  rcases body with (_ | req) | (_ | req) | (_ | req)
  all_goals first | rfl | cases nobody

variable (filed : s.Filed) (unused : s.Unused sha256 moment)

include filed

theorem serve_leads (names : body.userID = some user) :
    (body.effect sha256 moment (s.registrationsOf user)).Leads s (body.serve sha256 moment s).1 := by
  rcases body with (_ | req) | (_ | req) | (_ | req)
  all_goals cases names
  · exact registerApplication_leads sha256 moment req s _
  · exact createAccessGrant_leads sha256 moment req filed.registrations
  · exact registerData_leads sha256 moment req s _

include unused

/-- A registration that is updated keeps its user; a new one has the user of the request. -/
theorem updated_fits {req : CreateAccessGrantRequest} (grantID : Str) : s.applicationRegistrations.Fits applicationRegistrations req.userID
      ((findRegistration req.applicationID (s.registrationsOf req.userID)).toOption.map
        (req.updatedRegistration sha256 moment grantID)) := by
  intro w mem
  obtain ⟨found, look, rfl⟩ := map_eq_some_iff.mp mem
  cases found with
  | none => exact ⟨newID_ne_nil sha256 moment _ 0, rfl, .of_free unused.registration⟩
  | some reg =>
    have look : findRegistration req.applicationID (s.registrationsOf req.userID) = .ok (some reg) := by
      cases result : findRegistration req.applicationID _ with
      | error err => rw [result] at look; cases look
      | ok found => rw [result] at look; cases look; rfl
    obtain ⟨stored, owner⟩ := mem_listed filed.registrations (findRegistration_mem look)
    refine ⟨filed.registrations.ne_nil stored, owner, fun w here => ?_⟩
    have same : some reg = some w := stored.symm.trans here
    cases same
    rfl

theorem effect_fits (names : body.userID = some user) :
    s.Fits user (body.effect sha256 moment (s.registrationsOf user)) := by
  have nothing : s.Fits user {} := by constructor <;> simp [Fits]
  rcases body with (_ | req) | (_ | req) | (_ | req)
  all_goals cases names
  all_goals
    simp only [effect]
    split_ifs
    swap
    · exact nothing
  · refine ⟨?_, nothing.grant, nothing.data⟩
    rintro w ⟨⟩
    exact ⟨newID_ne_nil sha256 moment _ 0, rfl, .of_free unused.registration⟩
  · refine ⟨updated_fits filed unused _, ?_, nothing.data⟩
    rintro w ⟨⟩
    exact ⟨newID_ne_nil sha256 moment _ 0, rfl, .of_free unused.grant⟩
  · refine ⟨nothing.registration, nothing.grant, ?_⟩
    rintro w ⟨⟩
    exact ⟨newID_ne_nil sha256 moment _ 0, rfl, .of_free unused.data⟩

theorem serve_filed : (body.serve sha256 moment s).1.Filed := by
  cases names : body.userID with
  | none => rwa [serve_none names]
  | some user => exact filed.leads (effect_fits filed unused names) (serve_leads filed names)

/-- A request for another user does not concern the user. -/
theorem serve_other (same : s.SameFor u s')
    (other : ∀ user ∈ body.userID, user ≠ u) : (body.serve sha256 moment s).1.SameFor u s' := by
  cases names : body.userID with
  | none => rwa [serve_none names]
  | some user =>
    exact same.leads_other filed (effect_fits filed unused names) (serve_leads filed names) (other user names)

/-- A request for the user does the same to both storages. -/
theorem serve_both (same : s.SameFor u s') (filed' : s'.Filed) (own : ∀ user ∈ body.userID, user = u) :
    (body.serve sha256 moment s).1.SameFor u (body.serve sha256 moment s').1 := by
  cases names : body.userID with
  | none => rwa [serve_none names, serve_none names]
  | some user =>
    obtain rfl := own user names
    have registrations : s.registrationsOf user = s'.registrationsOf user :=
      same.registrations.listed filed.registrations rfl filed'.registrations
    have leads' := @serve_leads sha256 s' user moment body filed' names
    rw [← registrations] at leads'
    exact same.leads_both filed filed' (effect_fits filed unused names) (serve_leads filed names) leads'

end Body

variable {ρ : Type} (authenticate : ρ → Option Str)

def Arrival.isFor (u : Str) (a : Arrival ρ) : Bool := (authenticate a.request).all (· = u)

namespace Handler

def admits (h : Handler) (a : Arrival ρ) : Bool := (h.limiter.allow a.moment.now).2

theorem serve_storage (h : Handler) (a : Arrival ρ) : (h.serve sha256 authenticate a).1.storage =
      if h.admits a = true ∧ (authenticate a.request).isSome = true then
        (a.body.serve sha256 a.moment h.storage).1
      else h.storage := by
  unfold serve admits
  cases h.limiter.allow a.moment.now with
  | mk limiter admitted =>
    cases admitted with
    | false => simp
    | true => cases authenticate a.request <;> simp

/-- What a request has to meet: its body names the user who is authenticated, and the ids it may be
given are not in use. -/
structure Proper (h : Handler) (a : Arrival ρ) : Prop where
  own : ∀ w ∈ authenticate a.request, ∀ user ∈ a.body.userID, user = w
  unused : h.storage.Unused sha256 a.moment

/-- The states of two runs: everything is filed, and a user has the same in both. -/
structure Alike (u : Str) (h h' : Handler) : Prop where
  filed : h.storage.Filed
  filed' : h'.storage.Filed
  same : h.storage.SameFor u h'.storage

variable {sha256} {authenticate} {u : Str} {h h' : Handler} {a : Arrival ρ}

theorem serve_filed (filed : h.storage.Filed) (unused : h.storage.Unused sha256 a.moment) :
    (h.serve sha256 authenticate a).1.storage.Filed := by
  rw [serve_storage]
  split_ifs
  · exact Body.serve_filed filed unused
  · exact filed

/-- A request of another user keeps two states alike, if only one of them serves it. -/
theorem Alike.skip (alike : Alike u h h') (proper : h.Proper sha256 authenticate a)
    (other : a.isFor authenticate u = false) : Alike u (h.serve sha256 authenticate a).1 h' := by
  refine ⟨serve_filed alike.filed proper.unused, alike.filed', ?_⟩
  rw [serve_storage]
  split_ifs
  · refine serve_other alike.filed proper.unused alike.same fun user names here => ?_
    cases who : authenticate a.request with
    | none => simp [Arrival.isFor, who] at other
    | some w =>
      simp only [Arrival.isFor, who, all_some, decide_eq_false_iff_not] at other
      exact other ((proper.own w who user names).symm.trans here)
  · exact alike.same

/-- A request of the user keeps two states alike that both serve it. -/
theorem Alike.both (alike : Alike u h h') (proper : h.Proper sha256 authenticate a)
    (own : a.isFor authenticate u = true) (admitted : h.admits a = h'.admits a) :
    Alike u (h.serve sha256 authenticate a).1 (h'.serve sha256 authenticate a).1 := by
  have unused' := proper.unused.of_same alike.same
  refine ⟨serve_filed alike.filed proper.unused, serve_filed alike.filed' unused', ?_⟩
  rw [serve_storage, serve_storage, ← admitted]
  split_ifs with served
  · obtain ⟨w, who⟩ := isSome_iff_exists.mp served.2
    simp only [Arrival.isFor, who, all_some, decide_eq_true_eq] at own
    refine serve_both alike.filed proper.unused alike.same alike.filed' fun user names => ?_
    exact (proper.own w who user names).trans own
  · exact alike.same

/-- The handler after requests, from an empty storage. -/
def afterRequests (sha256 : Str → Str) (authenticate : ρ → Option Str) (limiter : RateLimiter)
    (arrivals : List (Arrival ρ)) : Handler :=
  Run.exec (Handler.serve sha256 authenticate) { limiter } arrivals

def listing (h : Handler) (u : Str) : List (Option ApplicationRegistration) ×
    List (Option AccessGrant) × List (Option DataRegistration) :=
  (h.storage.registrationsOf u, h.storage.accessGrants.listed accessGrants u,
    h.storage.dataRegistrations.listed dataRegistrations u)

theorem Alike.listing (alike : Alike u h h') : h.listing u = h'.listing u := by
  unfold Handler.listing InMemorySAIStorage.registrationsOf
  rw [alike.same.registrations.listed alike.filed.registrations rfl alike.filed'.registrations,
    alike.same.grants.listed alike.filed.grants rfl alike.filed'.grants,
    alike.same.data.listed alike.filed.data rfl alike.filed'.data]

/-- **Main result.** Without the requests of others the storage lists the same for a user, in every
run whose requests name the user who is authenticated and are given new ids, if the limiter, which
all users share, lets the same requests of the user through. -/
theorem listing_without_others (limiter : RateLimiter) (u : Str) {arrivals : List (Arrival ρ)}
    (proper : ∀ before a after, arrivals = before ++ a :: after →
      (afterRequests sha256 authenticate limiter before).Proper sha256 authenticate a)
    (admitted : ∀ before a after, arrivals = before ++ a :: after → a.isFor authenticate u = true →
      (afterRequests sha256 authenticate limiter before).admits a =
        (afterRequests sha256 authenticate limiter (before.filter (·.isFor authenticate u))).admits a) :
    (afterRequests sha256 authenticate limiter arrivals).listing u =
      (afterRequests sha256 authenticate limiter (arrivals.filter (·.isFor authenticate u))).listing u := by
  have start : Alike u { limiter } { limiter } := by
    have filed : ({} : InMemorySAIStorage).Filed := ⟨.empty _, .empty _, .empty _⟩
    exact ⟨filed, filed, ⟨.refl u _, .refl u _, .refl u _⟩⟩
  refine Alike.listing (Run.exec_filter start ?_ ?_)
  · intro before a after split own alike
    exact alike.both (proper before a after split) own (admitted before a after split own)
  · intro before a after split other alike
    exact alike.skip (proper before a after split) other

/-- A request by `who` for a grant of `user`; a request is authenticated as what it says. -/
def sampleArrival (who user clock : String) : Arrival Str where
  request := str who
  body := .grants (some {
    userID := str user
    applicationID := "https://app.example/#id"
    accessNeedGroupIDs := []
    dataGrants := []
    authorizationAgentURL := [] })
  moment := { now := Time.zero, clock := fun _ _ => str clock }

def sampleLimiter : RateLimiter where
  maxRequests := 100
  window := 60
  lastRequest := Time.zero

def twoUsers : List (Arrival Str) :=
  [sampleArrival "https://alice.example/#me" "https://alice.example/#me" "1",
    sampleArrival "https://bob.example/#me" "https://bob.example/#me" "2"]

theorem listing_without_others_sample :
    let alice := "https://alice.example/#me"
    (afterRequests List.reverse some sampleLimiter twoUsers).listing (str alice) =
        (afterRequests List.reverse some sampleLimiter
          (twoUsers.filter (·.isFor some (str alice)))).listing (str alice) ∧
      ((afterRequests List.reverse some sampleLimiter twoUsers).listing (str alice)).2.1.length = 1 := by
  intro alice
  refine ⟨listing_without_others sampleLimiter (str alice) ?_ ?_, by decide +kernel⟩
  · rintro (_ | ⟨first, _ | ⟨second, before⟩⟩) a after split
    · cases split
      refine ⟨?_, by decide +kernel, by decide +kernel, by decide +kernel⟩
      rintro w ⟨⟩ user ⟨⟩
      rfl
    · cases split
      refine ⟨?_, by decide +kernel, by decide +kernel, by decide +kernel⟩
      rintro w ⟨⟩ user ⟨⟩
      rfl
    · have lengths := congrArg length split
      simp [twoUsers] at lengths
  · rintro (_ | ⟨first, _ | ⟨second, before⟩⟩) a after split own
    · rfl
    · cases split
      exact absurd own (by decide +kernel)
    · have lengths := congrArg length split
      simp [twoUsers] at lengths

/-- Mallory is authenticated and asks for a grant of Alice: it is listed for Alice, who never sent a
request. -/
theorem grant_of_another_user :
    let alice := "https://alice.example/#me"
    let arrivals := [sampleArrival "https://mallory.example/#me" alice "1"]
    arrivals.filter (·.isFor some (str alice)) = [] ∧
      ((afterRequests List.reverse some sampleLimiter arrivals).listing (str alice)).2.1.length = 1 ∧
      (afterRequests List.reverse some sampleLimiter []).listing (str alice) = ([], [], []) := by
  decide +kernel

end Handler

end Sai
