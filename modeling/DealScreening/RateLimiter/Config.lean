-- SUMMARY: Scopes, endpoint groups and the limits table, and the key of a bucket, which tells scope, id and group apart.
import DealScreening.Python.Text
import DealScreening.RateLimiter.Bucket

/-!
# Rate limit configuration
-/

namespace RateLimiter

open Python

inductive EndpointGroup where
  | authLogin
  | authRefresh
  | upload
  | rescore
  | default
  deriving DecidableEq

def EndpointGroup.value : EndpointGroup → Str
  | .authLogin => text "auth_login"
  | .authRefresh => text "auth_refresh"
  | .upload => text "upload"
  | .rescore => text "rescore"
  | .default => text "default"

inductive Scope where
  | ip
  | email
  | user
  | tenant
  deriving DecidableEq

def Scope.value : Scope → Str
  | .ip => text "ip"
  | .email => text "email"
  | .user => text "user"
  | .tenant => text "tenant"

/-- `ROUTE_GROUP_MAP`. -/
def routeGroupMap : List (Str × EndpointGroup) :=
  [(text "/api/v1/auth/login", .authLogin), (text "/api/v1/auth/refresh", .authRefresh),
   (text "/api/v1/deals/upload", .upload)]

def resolveEndpointGroup (path : Str) : EndpointGroup :=
  match routeGroupMap.find? fun (route, _) => path = route ∨ (route ++ text "/") <+: path with
  | some (_, group) => group
  | none => .default

/-- `LimitsTable`, by its `get`. -/
structure LimitsTable (R : Type) where
  get : Scope → EndpointGroup → Option (BucketConfig R)

section Defaults

variable {R : Type} [IntCast R] [Div R]

/-- `DEFAULT_LIMITS`. -/
def defaultLimits : List (Scope × EndpointGroup × BucketConfig R) :=
  [(.ip, .authLogin, .perMinute 5 5),
   (.email, .authLogin, .perHour 20 20),
   (.ip, .authRefresh, .perMinute 10 10),
   (.user, .upload, .perMinute 10 10),
   (.tenant, .upload, .perMinute 100 100),
   (.user, .rescore, .perMinute 20 20),
   (.ip, .default, .perMinute 60 60),
   (.user, .default, .perMinute 120 120),
   (.tenant, .default, .perMinute 600 600)]

/-- No scope has two defaults for a group. -/
def LimitsTable.fromDefaults : LimitsTable R where
  get scope group :=
    (defaultLimits.find? fun (scope', group', _) => scope' = scope ∧ group' = group).map
      fun (_, _, config) => config

end Defaults

/-- What a bucket is for: a scope, the id of the client in it, and a group of endpoints. -/
structure Subject where
  scope : Scope
  id : Str
  group : EndpointGroup
  deriving DecidableEq

/-- `_build_key`. -/
def buildKey (subject : Subject) : Str :=
  text "rl:" ++ (subject.scope.value ++
    0x3A :: (subject.id ++ 0x3A :: subject.group.value))

/-- The part before the first separator. -/
theorem append_cons_injective {sep : Nat} {a a' r r' : Str} (ha : sep ∉ a) (ha' : sep ∉ a')
    (h : a ++ sep :: r = a' ++ sep :: r') : a = a' ∧ r = r' := by
  obtain ⟨b, rfl, hb⟩ | ⟨b, rfl, hb⟩ := List.append_eq_append_iff.mp h
  · cases b with
    | nil => exact ⟨(List.append_nil a).symm, (List.cons.inj hb).2⟩
    | cons c b =>
      obtain rfl := (List.cons.inj hb).1
      exact absurd (List.mem_append_right a (List.mem_cons_self ..)) ha'
  · cases b with
    | nil => exact ⟨List.append_nil a', (List.cons.inj hb).2.symm⟩
    | cons c b =>
      obtain rfl := (List.cons.inj hb).1
      exact absurd (List.mem_append_right a' (List.mem_cons_self ..)) ha

/-- The part after the last separator. -/
theorem append_cons_injective_last {sep : Nat} {a a' r r' : Str} (hr : sep ∉ r) (hr' : sep ∉ r')
    (h : a ++ sep :: r = a' ++ sep :: r') : a = a' ∧ r = r' := by
  have hreverse : r.reverse ++ sep :: a.reverse = r'.reverse ++ sep :: a'.reverse := by
    simpa using congrArg List.reverse h
  have hparts := append_cons_injective (by simpa using hr) (by simpa using hr') hreverse
  exact ⟨List.reverse_injective hparts.2, List.reverse_injective hparts.1⟩

/-- Neither a scope nor a group holds a colon, so an id may. -/
theorem buildKey_injective : Function.Injective buildKey := by
  intro subject subject' h
  have hscope : ∀ scope : Scope, 0x3A ∉ scope.value := by
    intro scope
    cases scope <;> decide
  have hgroup : ∀ group : EndpointGroup, 0x3A ∉ group.value := by
    intro group
    cases group <;> decide
  have hscopes : Function.Injective Scope.value := by
    intro scope scope'
    cases scope <;> cases scope' <;> decide
  have hgroups : Function.Injective EndpointGroup.value := by
    intro group group'
    cases group <;> cases group' <;> decide
  have hrest := append_cons_injective (hscope _) (hscope _) (List.append_cancel_left h)
  have hlast := append_cons_injective_last (hgroup _) (hgroup _) hrest.2
  cases subject
  cases subject'
  rw [Subject.mk.injEq]
  exact ⟨hscopes hrest.1, hlast.1, hgroups hlast.2⟩

end RateLimiter
