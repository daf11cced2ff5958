import NsiOrchestrator.Lib.Dict
import NsiOrchestrator.Lib.Pattern
import NsiOrchestrator.Lib.Text
import Mathlib.Data.String.Basic

/-! # The group gate

Requests pass by membership of a group in the user's claim. The callback route is
exempt, since the aggregator carries no token. The exemption is a search of the
path, so that it also covers paths that merely hold the text of a callback.
-/

namespace NsiOrchestrator.Auth

open Text

/-- `_CALLBACK_PATH`: `/processes/[^/]+/callback/[^/]+`. -/
def callbackPath : Pattern Char :=
  .andThen (.literal "/processes/".toList) (.andThen (.oneOrMore (· ≠ '/'))
    (.andThen (.literal "/callback/".toList) (.oneOrMore (· ≠ '/'))))

/-- The value of a claim: a text, a list, tuple or set, or anything else. -/
inductive Claim (V : Type)
  | text (value : String)
  | collection (values : List V)
  | other

/-- The claims of an authenticated user. -/
abbrev UserModel (V : Type) := Dict String (Claim V)

section Groups

variable {V : Type} (str : V → String)

def tokenGroups (user : Option (UserModel V)) (claim : String) : Finset String :=
  let raw := user.bind fun claims => if claims.entries = [] then none else claims.get? claim
  match raw with
  | some (.text value) => {value}
  | some (.collection values) => (values.map str).toFinset
  | _ => ∅

def isMember (user : Option (UserModel V)) (allowed : Finset String) (claim : String) : Bool :=
  decide (allowed ∩ tokenGroups str user claim).Nonempty

structure GroupGate where
  writeGroups : Finset String
  groupsClaim : String

/-- `GroupGate.authorize`. `none` lets the request pass, as `true` does. -/
def GroupGate.authorize (gate : GroupGate) (oauth2Active : Bool) (path : String)
    (user : Option (UserModel V)) : Option Bool :=
  if !oauth2Active then none
  else if callbackPath.search path.toList then none
  else some (isMember str user gate.writeGroups gate.groupsClaim)

structure GroupGateGraphql where
  readGroups : Finset String
  writeGroups : Finset String
  groupsClaim : String

def GroupGateGraphql.init (readGroups writeGroups : Finset String) (groupsClaim : String) :
    GroupGateGraphql :=
  ⟨readGroups ∪ writeGroups, writeGroups, groupsClaim⟩

def graphqlQuery : String := "QUERY"

def GroupGateGraphql.authorize (gate : GroupGateGraphql) (oauth2Active : Bool) (method : String)
    (user : Option (UserModel V)) : Option Bool :=
  if !oauth2Active then none
  else
    let allowed := if method = graphqlQuery then gate.readGroups else gate.writeGroups
    some (isMember str user allowed gate.groupsClaim)

/-- `UserinfoOIDCAuth.is_bypassable_request`. -/
def isBypassableRequest (path : String) : Bool := callbackPath.search path.toList

/-! ## Membership -/

/-- The claim holds the group: as its text, or among its values. -/
inductive Carries (user : Option (UserModel V)) (claim group : String) : Prop
  | text {claims : UserModel V} : user = some claims → claims.get? claim = some (.text group) →
      Carries user claim group
  | member {claims : UserModel V} {values : List V} {value : V} : user = some claims →
      claims.get? claim = some (.collection values) → value ∈ values → str value = group →
      Carries user claim group

variable {str} {user : Option (UserModel V)} {claim group : String}

theorem mem_tokenGroups : group ∈ tokenGroups str user claim ↔ Carries str user claim group := by
  cases user with
  | none =>
      simp only [tokenGroups, Option.bind_none, Finset.notMem_empty, false_iff]
      rintro (⟨h, _⟩ | ⟨h, _⟩) <;> cases h
  | some claims =>
      have hraw : (if claims.entries = [] then none else claims.get? claim) =
          claims.get? claim := by
        split
        · next hnil => simp [Dict.get?, hnil]
        · rfl
      simp only [tokenGroups, Option.bind_some, hraw]
      constructor
      · intro h
        split at h
        · next value hvalue =>
            rw [Finset.mem_singleton] at h
            exact .text rfl (h ▸ hvalue)
        · next values hvalues =>
            obtain ⟨value, hin, heq⟩ := List.mem_map.mp (List.mem_toFinset.mp h)
            exact .member rfl hvalues hin heq
        · cases h
      · intro h
        cases h with
        | text huser hget =>
            cases huser
            simp [hget]
        | member huser hget hin heq =>
            cases huser
            simp only [hget, List.mem_toFinset]
            exact List.mem_map.mpr ⟨_, hin, heq⟩

theorem isMember_iff {allowed : Finset String} :
    isMember str user allowed claim = true ↔ ∃ group ∈ allowed, Carries str user claim group := by
  rw [isMember, decide_eq_true_iff]
  constructor
  · rintro ⟨group, hgroup⟩
    obtain ⟨hallowed, hin⟩ := Finset.mem_inter.mp hgroup
    exact ⟨group, hallowed, mem_tokenGroups.mp hin⟩
  · rintro ⟨group, hallowed, hcarries⟩
    exact ⟨group, Finset.mem_inter.mpr ⟨hallowed, mem_tokenGroups.mpr hcarries⟩⟩

theorem GroupGateGraphql.authorize_iff (readGroups writeGroups : Finset String) (method : String) :
    (GroupGateGraphql.init readGroups writeGroups claim).authorize str true method user ≠
        some false ↔
      ∃ group, Carries str user claim group ∧
        (group ∈ writeGroups ∨ method = graphqlQuery ∧ group ∈ readGroups) := by
  simp only [authorize, init, Bool.not_true, Bool.false_eq_true, if_false, ne_eq,
    Option.some.injEq, Bool.not_eq_false, isMember_iff]
  by_cases hquery : method = graphqlQuery
  · simp only [hquery, if_true, Finset.mem_union, true_and]
    apply exists_congr
    intro group
    rw [or_comm, and_comm]
  · simp only [hquery, if_false, false_and, or_false]
    apply exists_congr
    intro group
    rw [and_comm]

end Groups

/-! ## Paths -/

def Segment (s : String) : Prop := s ≠ "" ∧ '/' ∉ s.toList

/-- The whole path is the callback route or its progress route. -/
def CallbackRoute (path : String) : Prop :=
  ∃ id token : String, Segment id ∧ Segment token ∧
    (path = s!"/api/processes/{id}/callback/{token}" ∨
      path = s!"/api/processes/{id}/callback/{token}/progress")

/-- The text of a callback stands somewhere in the path. -/
def HoldsCallback (path : String) : Prop :=
  ∃ before id token after : String, Segment id ∧ Segment token ∧
    path = s!"{before}/processes/{id}/callback/{token}{after}"

theorem mem_segments {m : Chars} :
    m ∈ (Pattern.oneOrMore fun c : Char => decide (c ≠ '/')).language ↔
      Segment (String.ofList m) := by
  have hempty : String.ofList m = "" ↔ m = [] := by
    rw [← String.toList_inj, String.toList_ofList]
    rfl
  rw [Segment, String.toList_ofList, ne_eq, hempty, Pattern.mem_oneOrMore]
  constructor
  · rintro ⟨hne, hok⟩
    refine ⟨hne, fun hin => ?_⟩
    simpa using hok '/' hin
  · rintro ⟨hne, hslash⟩
    refine ⟨hne, fun c hc => ?_⟩
    rw [decide_eq_true_iff]
    rintro rfl
    exact hslash hc

theorem mem_callbackPath {m : Chars} :
    m ∈ callbackPath.language ↔ ∃ id token : String, Segment id ∧ Segment token ∧
      m = "/processes/".toList ++ (id.toList ++ ("/callback/".toList ++ token.toList)) := by
  simp only [callbackPath, Pattern.mem_andThen, Pattern.mem_literal, mem_segments]
  constructor
  · rintro ⟨_, rfl, _, ⟨id, hid, _, ⟨_, rfl, token, htoken, rfl⟩, rfl⟩, rfl⟩
    refine ⟨String.ofList id, String.ofList token, hid, htoken, ?_⟩
    simp only [String.toList_ofList]
  · rintro ⟨id, token, hid, htoken, rfl⟩
    refine ⟨_, rfl, _, ⟨id.toList, ?_, _, ⟨_, rfl, token.toList, ?_, rfl⟩, rfl⟩, rfl⟩
    · rwa [String.ofList_toList]
    · rwa [String.ofList_toList]

theorem isBypassableRequest_iff {path : String} :
    isBypassableRequest path = true ↔ HoldsCallback path := by
  rw [isBypassableRequest, Pattern.search_iff]
  constructor
  · rintro ⟨before, m, after, hm, heq⟩
    obtain ⟨id, token, hid, htoken, rfl⟩ := mem_callbackPath.mp hm
    refine ⟨String.ofList before, id, token, String.ofList after, hid, htoken, ?_⟩
    rw [← String.toList_inj, heq]
    simp [toString]
  · rintro ⟨before, id, token, after, hid, htoken, rfl⟩
    refine ⟨before.toList, _, after.toList, mem_callbackPath.mpr ⟨id, token, hid, htoken, rfl⟩, ?_⟩
    simp [toString]

theorem CallbackRoute.holdsCallback {path : String} (h : CallbackRoute path) :
    HoldsCallback path := by
  obtain ⟨id, token, hid, htoken, rfl | rfl⟩ := h
  · refine ⟨"/api", id, token, "", hid, htoken, ?_⟩
    rw [← String.toList_inj]
    simp [toString]
  · refine ⟨"/api", id, token, "/progress", hid, htoken, ?_⟩
    rw [← String.toList_inj]
    simp [toString]

/-! ## Who passes -/

section Gate

variable {V : Type} {str : V → String} {gate : GroupGate} {path : String}
  {user : Option (UserModel V)}

theorem GroupGate.authorize_ne_false :
    gate.authorize str true path user ≠ some false ↔
      HoldsCallback path ∨ ∃ group ∈ gate.writeGroups, Carries str user gate.groupsClaim group := by
  rw [← isMember_iff, ← isBypassableRequest_iff, isBypassableRequest]
  cases hsearch : callbackPath.search path.toList <;> simp [authorize, hsearch]

variable (str gate path user)

/-- With authentication on, a request passes the gate by a write group or on the callback route
only, and authentication is skipped on the callback route and nowhere else. -/
def OpensOnly : Prop :=
  (gate.authorize str true path user ≠ some false →
    (∃ group ∈ gate.writeGroups, Carries str user gate.groupsClaim group) ∨
      CallbackRoute path) ∧
  (isBypassableRequest path = true ↔ CallbackRoute path)

/-- The gate opens to nobody else exactly where no other path holds the text of a callback. -/
theorem opensOnly_iff :
    OpensOnly str gate path user ↔ (HoldsCallback path → CallbackRoute path) := by
  rw [OpensOnly, GroupGate.authorize_ne_false, isBypassableRequest_iff]
  constructor
  · rintro ⟨_, hbypass⟩ hholds
    exact hbypass.mp hholds
  · intro h
    refine ⟨?_, h, CallbackRoute.holdsCallback⟩
    rintro (hholds | hmember)
    · exact .inr (h hholds)
    · exact .inl hmember

end Gate

def operatorsGate : GroupGate := ⟨{"operators"}, "groups"⟩

/-- A path of another route that ends like a callback passes without a user. -/
theorem callback_text_passes :
    ¬ OpensOnly (id : String → String) operatorsGate
      "/api/subscriptions/processes/x/callback/y" none := by
  rintro ⟨_, hbypass⟩
  have hskipped : isBypassableRequest "/api/subscriptions/processes/x/callback/y" = true := by
    rw [isBypassableRequest_iff]
    refine ⟨"/api/subscriptions", "x", "y", "", ?_, ?_, ?_⟩
    · exact ⟨by decide, by decide⟩
    · exact ⟨by decide, by decide⟩
    · decide
  obtain ⟨id, token, _, _, hpath⟩ := hbypass.mp hskipped
  rcases hpath with hpath | hpath
  · have hchars := congrArg String.toList hpath
    simp [toString] at hchars
  · have hchars := congrArg String.toList hpath
    simp [toString] at hchars

end NsiOrchestrator.Auth
