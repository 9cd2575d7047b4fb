import RemoteControl.Sync.Accessible

/-!
# Address books

`addressbook/service.go`. What a user may do with a book is found in two ways: `List` reads the
grants of all books at once and sorts them by book, `Authorize` reads those of the one book. Both
end in `permissionFrom`, a walk over grants that keeps the best.

> The best grant depends only on which grants there are (`Entitled`), so neither the order nor the
> way they were read matters.

The orders of the queries are parameters. The columns hold any text; that a grant is for reading or
writing only is a check of `PutGrant`.
-/

namespace RemoteControl.Sync

open Lib List

variable {now : Nat} {p required : String} {trimSpace : String → String}

structure AddressBook where
  id : String
  name : String
  kind : String
  ownerUserId : String
  permission : String
  canManage : Bool
  createdAt : Nat
  updatedAt : Nat
deriving DecidableEq, Repr

structure AddressBookGrant where
  id : String
  addressBookId : String
  subjectType : String
  subjectId : String
  permission : String
  createdAt : Nat
  updatedAt : Nat
deriving DecidableEq, Repr

variable {grant : AddressBookGrant}

def AddressBookGrant.key (g : AddressBookGrant) : String × String × String :=
  (g.addressBookId, g.subjectType, g.subjectId)

structure BookStore where
  store : Store
  addressBooks : Table AddressBook.id
  addressBookGrants : Table AddressBookGrant.key

structure QueryOrder where
  books : List AddressBook → List AddressBook
  grants : List AddressBookGrant → List AddressBookGrant
  allGrants : List AddressBookGrant → List AddressBookGrant
  books_perm : ∀ l, (books l).Perm l
  grants_perm : ∀ l, (grants l).Perm l
  allGrants_perm : ∀ l, (allGrants l).Perm l

inductive BookError
  | notFound | forbidden
deriving DecidableEq, Repr

/-! ## The permission of a user -/

def permissionRank (value : String) : Nat :=
  if value = "read" then 1 else if value = "write" then 2 else if value = "manage" then 3 else 0

def AddressBookGrant.matches (user : User) (groups : List String) (grant : AddressBookGrant) :
    Bool :=
  if grant.subjectType = "user_group" then grant.subjectId ∈ groups
  else grant.subjectType = "user" && grant.subjectId = user.id

/-- One round of the loop of `permissionFrom`. -/
def betterPermission (user : User) (groups : List String) (best : String)
    (grant : AddressBookGrant) : String :=
  if grant.matches user groups ∧ permissionRank best < permissionRank grant.permission then
    grant.permission
  else best

def bestPermission (user : User) (groups : List String) (grants : List AddressBookGrant) : String :=
  grants.foldl (betterPermission user groups) ""

def permissionFrom (user : User) (book : AddressBook) (grants : List AddressBookGrant)
    (memberships : List UserGroupMembership) : Except BookError String :=
  if user.role = "admin" ∨ user.id = book.ownerUserId then .ok "manage"
  else if book.kind ≠ "shared" then .error .forbidden
  else
    let best := bestPermission user (activeGroups user.id memberships) grants
    if best = "" then .error .forbidden else .ok best

def AddressBook.withPermission (book : AddressBook) (permission : String) : AddressBook :=
  { book with permission, canManage := permission = "manage" }

namespace BookStore

def listAddressBookGrants (o : QueryOrder) (s : BookStore) (bookId : String) :
    List AddressBookGrant :=
  o.grants (s.addressBookGrants.rows.filter fun g => g.addressBookId = bookId)

def list (o : QueryOrder) (s : BookStore) (user : User) : List AddressBook :=
  let grants := o.allGrants s.addressBookGrants.rows
  (o.books s.addressBooks.rows).filterMap fun book =>
    match permissionFrom user book (grants.filter fun g => g.addressBookId = book.id)
        s.store.listUserGroupMemberships with
    | .ok permission => some (book.withPermission permission)
    | .error _ => none

def permission (o : QueryOrder) (s : BookStore) (user : User) (book : AddressBook) :
    Except BookError String :=
  if user.role = "admin" ∨ user.id = book.ownerUserId then .ok "manage"
  else if book.kind ≠ "shared" then .error .forbidden
  else permissionFrom user book (s.listAddressBookGrants o book.id) s.store.listUserGroupMemberships

def authorize (o : QueryOrder) (s : BookStore) (user : User) (bookId required : String) :
    Except BookError AddressBook :=
  match s.addressBooks.get? bookId with
  | none => .error .notFound
  | some book =>
    match s.permission o user book with
    | .error e => .error e
    | .ok permission =>
      if permissionRank permission < permissionRank required then .error .forbidden
      else .ok (book.withPermission permission)

/-! ## Storing a grant -/

/-- Whether the subject of a grant is there. -/
def checkSubject (s : BookStore) (grant : AddressBookGrant) : Except BookError Unit :=
  if grant.subjectType = "user" then
    if (s.store.users.get? grant.subjectId).isNone then .error .notFound else .ok ()
  else match s.store.groups.get? grant.subjectId with
    | none => .error .notFound
    | some group => if group.kind ≠ .user then .error .forbidden else .ok ()

/-- `PutGrant` up to the grant that is written; `id` is drawn by `uuid.NewString`. -/
def prepareGrant (o : QueryOrder) (trimSpace : String → String) (s : BookStore) (user : User)
    (grant : AddressBookGrant) (id : String) (now : Nat) : Except BookError AddressBookGrant :=
  match s.authorize o user grant.addressBookId "manage" with
  | .error e => .error e
  | .ok book =>
    if book.kind ≠ "shared" ∨ (grant.subjectType ≠ "user" ∧ grant.subjectType ≠ "user_group") ∨
        (grant.permission ≠ "read" ∧ grant.permission ≠ "write") then .error .forbidden
    else
      let grant := { grant with subjectId := trimSpace grant.subjectId }
      if grant.subjectId = "" ∨ grant.subjectId = book.ownerUserId then .error .forbidden
      else match s.checkSubject grant with
        | .error e => .error e
        | .ok () => .ok { grant with id, createdAt := now, updatedAt := now }

def upsertAddressBookGrant (s : BookStore) (v : AddressBookGrant) : BookStore :=
  let row := match s.addressBookGrants.get? v.key with
    | none => v
    | some old => { old with permission := v.permission, updatedAt := v.updatedAt }
  { s with addressBookGrants := s.addressBookGrants.put row }

/-- `PutGrant`: the row is read back for the answer. -/
def putGrant (o : QueryOrder) (trimSpace : String → String) (s : BookStore) (user : User)
    (grant : AddressBookGrant) (id : String) (now : Nat) :
    Except BookError (AddressBookGrant × BookStore) :=
  match s.prepareGrant o trimSpace user grant id now with
  | .error e => .error e
  | .ok grant =>
    let s := s.upsertAddressBookGrant grant
    let current := (s.listAddressBookGrants o grant.addressBookId).find? fun current =>
      current.subjectType = grant.subjectType ∧ current.subjectId = grant.subjectId
    .ok (current.getD grant, s)

/-- The stores whose grants all came from `PutGrant`. Its checks may have read an older store, and
everything else may change in any way that adds no grant. -/
inductive Granted (o : QueryOrder) (trimSpace : String → String) : BookStore → Prop
  | start {s : BookStore} (h : s.addressBookGrants.rows = []) : Granted o trimSpace s
  | put {s s₀ : BookStore} {user : User} {grant stored : AddressBookGrant} {id : String}
      {now : Nat} (h : Granted o trimSpace s)
      (hprepare : s₀.prepareGrant o trimSpace user grant id now = .ok stored) :
      Granted o trimSpace (s.upsertAddressBookGrant stored)
  | other {s s' : BookStore} (h : Granted o trimSpace s)
      (hgrants : s'.addressBookGrants.rows ⊆ s.addressBookGrants.rows) : Granted o trimSpace s'

end BookStore

/-! ## What a walk over the grants finds -/

variable {user : User} {book : AddressBook} {groups : List String} {s s' : BookStore}
  {o : QueryOrder} {grants grants' : List AddressBookGrant} {k : Nat}
  {memberships memberships' : List UserGroupMembership}

/-- The user may act on the book at rank `k`. -/
def Entitled (user : User) (book : AddressBook) (grants : List AddressBookGrant)
    (memberships : List UserGroupMembership) (k : Nat) : Prop :=
  (user.role = "admin" ∨ user.id = book.ownerUserId) ∧ k ≤ 3 ∨
    book.kind = "shared" ∧ ∃ g ∈ grants,
      g.matches user (activeGroups user.id memberships) = true ∧ k ≤ permissionRank g.permission

theorem permissionRank_le (p : String) : permissionRank p ≤ 3 := by
  unfold permissionRank
  split_ifs <;> omega

theorem eq_of_permissionRank {q : String} (hp : 0 < permissionRank p)
    (h : permissionRank p = permissionRank q) : p = q := by
  unfold permissionRank at hp h
  split_ifs at hp h <;> simp_all

/-- The best permission reaches a rank if it did so before or some matching grant does. -/
theorem le_rank_foldl (user : User) (groups : List String) (grants : List AddressBookGrant)
    (k : Nat) (best : String) :
    k ≤ permissionRank (grants.foldl (betterPermission user groups) best) ↔
      k ≤ permissionRank best ∨
        ∃ g ∈ grants, g.matches user groups = true ∧ k ≤ permissionRank g.permission := by
  induction grants generalizing best with
  | nil => simp
  | cons g grants ih =>
    have hone : k ≤ permissionRank (betterPermission user groups best g) ↔
        k ≤ permissionRank best ∨
          g.matches user groups = true ∧ k ≤ permissionRank g.permission := by
      unfold betterPermission
      by_cases hmatch : g.matches user groups = true
      · split_ifs with h
        · have := h.2
          simp only [hmatch, true_and]
          omega
        · have hle : permissionRank g.permission ≤ permissionRank best := by
            by_contra hlt
            exact h ⟨hmatch, by omega⟩
          simp only [hmatch, true_and]
          omega
      · rw [if_neg fun h => hmatch h.1]
        simp [hmatch]
    rw [foldl_cons, ih, hone]
    simp only [mem_cons, exists_eq_or_imp, or_assoc]

/-- The walk ends with one of the three permissions or with none. -/
theorem bestPermission_ranked : bestPermission user groups grants = "" ∨
    0 < permissionRank (bestPermission user groups grants) := by
  suffices h : ∀ best, best = "" ∨ 0 < permissionRank best →
      grants.foldl (betterPermission user groups) best = "" ∨
        0 < permissionRank (grants.foldl (betterPermission user groups) best) from h "" (.inl rfl)
  induction grants with
  | nil => exact fun _ h => h
  | cons g grants ih =>
    intro best h
    refine ih _ ?_
    unfold betterPermission
    split_ifs with hbetter
    · exact .inr (by omega)
    · exact h

theorem rank_pos (h : permissionFrom user book grants memberships = .ok p) :
    0 < permissionRank p := by
  unfold permissionFrom at h
  simp only at h
  split_ifs at h with hmanage hkind hbest
  · cases h
    decide
  · cases h
    exact bestPermission_ranked.resolve_left hbest

/-- `permissionFrom` returns a permission of rank `k` or more if the user is entitled to it. -/
theorem permissionFrom_iff (hk : 0 < k) :
    (∃ p, permissionFrom user book grants memberships = .ok p ∧ k ≤ permissionRank p) ↔
      Entitled user book grants memberships k := by
  unfold permissionFrom Entitled
  by_cases hmanage : user.role = "admin" ∨ user.id = book.ownerUserId
  · rw [if_pos hmanage]
    constructor
    · rintro ⟨p, -, hp⟩
      exact .inl ⟨hmanage, hp.trans (permissionRank_le p)⟩
    · rintro (⟨-, h⟩ | ⟨-, g, -, -, h⟩)
      · exact ⟨"manage", rfl, h⟩
      · exact ⟨"manage", rfl, h.trans (permissionRank_le _)⟩
  · rw [if_neg hmanage, or_iff_right fun h => hmanage h.1]
    by_cases hkind : book.kind = "shared"
    · rw [if_neg (not_not.mpr hkind), and_iff_right hkind]
      have hzero : ¬ k ≤ permissionRank "" := Nat.not_le.mpr hk
      have hbest := le_rank_foldl user (activeGroups user.id memberships) grants k ""
      rw [or_iff_right hzero] at hbest
      rw [← hbest]
      show (∃ p, (if bestPermission user _ grants = "" then _ else _) = _ ∧ _) ↔
        k ≤ permissionRank (bestPermission user _ grants)
      split_ifs with hnone
      · rw [hnone]
        exact ⟨nofun, fun h => absurd h hzero⟩
      · exact ⟨fun ⟨p, hp, hrank⟩ => by cases hp; exact hrank, fun h => ⟨_, rfl, h⟩⟩
    · rw [if_pos hkind]
      exact ⟨nofun, fun h => absurd h.1 hkind⟩

/-- Only the set of the grants matters. -/
theorem bestPermission_congr (h : ∀ g, g ∈ grants ↔ g ∈ grants') :
    bestPermission user groups grants = bestPermission user groups grants' := by
  have hrank : permissionRank (bestPermission user groups grants) =
      permissionRank (bestPermission user groups grants') := by
    have hle : ∀ k, k ≤ permissionRank (bestPermission user groups grants) ↔
        k ≤ permissionRank (bestPermission user groups grants') := by
      intro k
      simp only [bestPermission, le_rank_foldl, h]
    exact le_antisymm ((hle _).mp le_rfl) ((hle _).mpr le_rfl)
  rcases bestPermission_ranked with hnone | hpos
  · have hzero : ¬ 0 < permissionRank (bestPermission user groups grants') := by
      rw [← hrank, hnone]
      decide
    rw [hnone, bestPermission_ranked.resolve_right hzero]
  · exact eq_of_permissionRank hpos hrank

namespace BookStore

/-- The permission from the grants as they lie in the table. -/
def held (s : BookStore) (user : User) (book : AddressBook) : Except BookError String :=
  permissionFrom user book (s.addressBookGrants.rows.filter fun g => g.addressBookId = book.id)
    s.store.listUserGroupMemberships

theorem permission_eq (book : AddressBook) : s.permission o user book = s.held user book := by
  unfold permission held permissionFrom listAddressBookGrants
  rw [bestPermission_congr fun g => (o.grants_perm _).mem_iff]
  split_ifs <;> rfl

def Allowed (o : QueryOrder) (s : BookStore) (user : User) (id required : String) : Prop :=
  ∃ b, s.authorize o user id required = .ok b

theorem allowed_iff {id : String} : s.Allowed o user id required ↔
    ∃ book, s.addressBooks.get? id = some book ∧
      ∃ p, s.held user book = .ok p ∧ permissionRank required ≤ permissionRank p := by
  unfold Allowed authorize
  cases hbook : s.addressBooks.get? id with
  | none => exact ⟨nofun, nofun⟩
  | some book =>
    simp only [permission_eq, Option.some.injEq, exists_eq_left']
    cases s.held user book with
    | error e => exact ⟨nofun, nofun⟩
    | ok p =>
      simp only [Except.ok.injEq, exists_eq_left']
      split_ifs with hrank
      · exact ⟨nofun, fun h => absurd hrank (by omega)⟩
      · exact ⟨fun _ => by omega, fun _ => ⟨_, rfl⟩⟩

/-- Every permission that lets a user in has a rank. -/
theorem allowed_iff_entitled {id : String} : s.Allowed o user id required ↔
    ∃ book, s.addressBooks.get? id = some book ∧ Entitled user book
      (s.addressBookGrants.rows.filter fun g => g.addressBookId = book.id)
      s.store.listUserGroupMemberships (max 1 (permissionRank required)) := by
  rw [allowed_iff]
  refine exists_congr fun book => and_congr_right fun _ => ?_
  rw [← permissionFrom_iff (by omega)]
  refine exists_congr fun p => and_congr_right fun hp => ?_
  have := rank_pos hp
  omega

theorem mem_list_iff {id : String} : (∃ b ∈ s.list o user, b.id = id ∧ b.permission = p) ↔
    ∃ book, s.addressBooks.get? id = some book ∧ s.held user book = .ok p := by
  have hheld : ∀ book : AddressBook, permissionFrom user book
      ((o.allGrants s.addressBookGrants.rows).filter fun g => g.addressBookId = book.id)
      s.store.listUserGroupMemberships = s.held user book := by
    intro book
    unfold held permissionFrom
    rw [bestPermission_congr fun g => ((o.allGrants_perm _).filter _).mem_iff]
  simp only [list, hheld, mem_filterMap]
  constructor
  · rintro ⟨b, ⟨book, hbook, hb⟩, rfl, rfl⟩
    have hget := Table.get?_of_mem ((o.books_perm _).mem_iff.mp hbook)
    cases hp : s.held user book with
    | error e => rw [hp] at hb; cases hb
    | ok p => rw [hp] at hb; cases hb; exact ⟨book, hget, hp⟩
  · rintro ⟨book, hbook, hp⟩
    refine ⟨book.withPermission p,
      ⟨book, (o.books_perm _).mem_iff.mpr (Table.mem_of_get? hbook), ?_⟩,
      (Table.get?_key hbook : book.id = id), rfl⟩
    rw [hp]

/-! ## What grants can give -/

theorem prepareGrant_rank {stored : AddressBookGrant} {id : String}
    (h : s.prepareGrant o trimSpace user grant id now = .ok stored) :
    permissionRank stored.permission ≤ 2 := by
  unfold prepareGrant at h
  split at h
  · cases h
  · simp only at h
    split_ifs at h with hvalid
    · split at h
      · cases h
      · cases h
        show permissionRank grant.permission ≤ 2
        by_cases hread : grant.permission = "read"
        · rw [hread]; decide
        · have hwrite : grant.permission = "write" := by
            by_contra hwrite
            exact hvalid (.inr (.inr ⟨hread, hwrite⟩))
          rw [hwrite]; decide

/-- No grant that was stored is for managing. -/
theorem Granted.rank_le (h : s.Granted o trimSpace) :
    ∀ g ∈ s.addressBookGrants.rows, permissionRank g.permission ≤ 2 := by
  induction h with
  | start h => rw [h]; exact nofun
  | put h hprepare ih =>
    have hrank := prepareGrant_rank hprepare
    refine Table.all_put ih ?_
    split
    · exact hrank
    · exact hrank
  | other h hgrants ih => exact fun g hg => ih g (hgrants hg)

theorem granted_putGrant {answer : AddressBookGrant} {id : String} (h : s.Granted o trimSpace)
    (hput : s.putGrant o trimSpace user grant id now = .ok (answer, s')) :
    s'.Granted o trimSpace := by
  unfold putGrant at hput
  split at hput
  · cases hput
  · cases hput
    exact .put h ‹_›

end BookStore

open BookStore in
/-- The list shows a book with the best permission for which the user is let in. More grants and
more memberships never close a book. Grants from `PutGrant` do not let others manage a book, and
let nobody into one that is not shared. -/
theorem list_agrees_with_authorize (o : QueryOrder) (trimSpace : String → String) :
    (∀ (s : BookStore) user id p, (∃ b ∈ s.list o user, b.id = id ∧ b.permission = p) ↔
      s.Allowed o user id p ∧
        ∀ q, permissionRank p < permissionRank q → ¬ s.Allowed o user id q) ∧
    (∀ (s s' : BookStore) user id required, s'.addressBooks = s.addressBooks →
      s.addressBookGrants.rows ⊆ s'.addressBookGrants.rows →
      s.store.memberships.rows ⊆ s'.store.memberships.rows →
      s.Allowed o user id required → s'.Allowed o user id required) ∧
    ∀ (s : BookStore) (user : User) id book required, s.Granted o trimSpace →
      s.addressBooks.get? id = some book →
      user.role ≠ "admin" → user.id ≠ book.ownerUserId →
      permissionRank "write" < permissionRank required ∨ book.kind ≠ "shared" →
      ¬ s.Allowed o user id required := by
  refine ⟨?_, ?_, ?_⟩
  · intro s user id p
    rw [mem_list_iff, allowed_iff]
    constructor
    · rintro ⟨book, hbook, hp⟩
      refine ⟨⟨book, hbook, p, hp, le_rfl⟩, ?_⟩
      intro q hq hallowed
      obtain ⟨book', hbook', p', hp', hle⟩ := allowed_iff.mp hallowed
      cases hbook.symm.trans hbook'
      cases hp.symm.trans hp'
      omega
    · rintro ⟨⟨book, hbook, q, hq, hle⟩, hhighest⟩
      refine ⟨book, hbook, ?_⟩
      have hrank : permissionRank q = permissionRank p := by
        by_contra hne
        exact hhighest q (by omega) (allowed_iff.mpr ⟨book, hbook, q, hq, le_rfl⟩)
      rw [hq, eq_of_permissionRank (rank_pos hq) hrank]
  · intro s s' user id required hbooks hgrants hmembers hallowed
    rw [allowed_iff_entitled] at hallowed ⊢
    rw [hbooks]
    obtain ⟨book, hbook, hentitled⟩ := hallowed
    refine ⟨book, hbook, hentitled.imp_right ?_⟩
    rintro ⟨hkind, g, hg, hmatch, hrank⟩
    refine ⟨hkind, g, ?_, ?_, hrank⟩
    · rw [mem_filter] at hg ⊢
      exact ⟨hgrants hg.1, hg.2⟩
    · unfold AddressBookGrant.matches at hmatch ⊢
      split_ifs at hmatch ⊢ with hgroup
      · rw [decide_eq_true_eq] at hmatch ⊢
        refine map_subset _ (filter_subset _ ?_) hmatch
        exact map_subset _ hmembers
      · exact hmatch
  · intro s user id book required hgranted hbook hadmin howner hmore hallowed
    obtain ⟨book', hbook', ⟨hmanage, -⟩ | ⟨hkind, g, hg, -, hrank⟩⟩ :=
      allowed_iff_entitled.mp hallowed
    · cases hbook.symm.trans hbook'
      exact hmanage.elim hadmin howner
    · cases hbook.symm.trans hbook'
      rcases hmore with hmore | hkind'
      · have hle := hgranted.rank_le g (mem_filter.mp hg).1
        have hwrite : permissionRank "write" = 2 := by decide
        omega
      · exact hkind' hkind

/-- A shared book of another user, before anyone was granted anything. -/
def sharedBooks : BookStore where
  store := { Store.empty ⟨true, false⟩ with users := Table.empty.put sampleUser }
  addressBooks := Table.empty.put ⟨"book-1", "Office", "shared", "user-2", "", false, 0, 0⟩
  addressBookGrants := .empty

def writeGrant : AddressBookGrant := ⟨"", "book-1", "user", "user-1", "write", 0, 0⟩

/-- A user who was given write access is shown the book with it and cannot manage the book. -/
theorem granted_user_writes :
    let o : QueryOrder := ⟨id, id, id, .refl, .refl, .refl⟩
    let s := sharedBooks.upsertAddressBookGrant { writeGrant with id := "grant-1" }
    (∃ b ∈ s.list o sampleUser, b.id = "book-1" ∧ b.permission = "write") ∧
      s.Allowed o sampleUser "book-1" "write" ∧ ¬ s.Allowed o sampleUser "book-1" "manage" := by
  intro o s
  have hput : sharedBooks.prepareGrant o id { sampleUser with id := "user-2" } writeGrant "grant-1"
      0 = .ok { writeGrant with id := "grant-1" } := rfl
  have hgranted : s.Granted o id := .put (.start rfl) hput
  have hall := list_agrees_with_authorize o id
  have hwrite : s.Allowed o sampleUser "book-1" "write" := ⟨_, rfl⟩
  have hmore : ∀ q, permissionRank "write" < permissionRank q →
      ¬ s.Allowed o sampleUser "book-1" q := fun q hq =>
    hall.2.2 s sampleUser "book-1" _ q hgranted rfl (by decide) (by decide) (.inl hq)
  exact ⟨(hall.1 s sampleUser "book-1" "write").mpr ⟨hwrite, hmore⟩, hwrite,
    hmore "manage" (by decide)⟩

end RemoteControl.Sync
