/-
# GlobalPayments.Payments.Pages — listing the payments of a sender, page by page.

`getPayments` caps the page size, builds a `PageRequest` sorted by `createdAt`, newest first, and
serves one page of what the query returns.  Spring Data passes the offset of a page to the query as a
Java int.

Payments may share a `createdAt`, and then their order is up to the database, for each query anew.
`pages_complete_iff` states exactly when the pages of a sender are nevertheless the payments of the
sender.
-/
import GlobalPayments.Library.Query
import GlobalPayments.Library.Runs
import GlobalPayments.Payments.Exceptions
import GlobalPayments.Payments.Service
import Mathlib.Order.OrderDual

namespace GlobalPayments.Payments

/-! ## `PageRequest` and `Page` -/

/-- `Integer.MAX_VALUE`. -/
def intMax : Nat := 2 ^ 31 - 1

/-- `PageRequest`; its constructor refuses what the fields say is not there. -/
structure PageRequest where
  page : Nat
  size : Nat
  size_pos : 1 ≤ size

/-- `PageRequest.of(page, size, sort)`. -/
def PageRequest.of (page size : Int) : Except JavaException PageRequest :=
  if page < 0 then .error (.illegalArgument "Page index must not be less than zero")
  else if h : size < 1 then .error (.illegalArgument "Page size must not be less than one")
  else .ok ⟨page.toNat, size.toNat, by omega⟩

/-- `pageable.getOffset()`. -/
def PageRequest.offset (r : PageRequest) : Nat := r.page * r.size

/-- `Page<Payment>`. -/
structure Page where
  content : List Payment
  number : Nat
  size : Nat
  totalElements : Nat

/-- `page.getTotalPages()`: the number of elements over the size, rounded up. -/
def totalPages (totalElements size : Nat) : Nat := (totalElements + size - 1) / size

/-- `PaymentPageResponse`. -/
structure PaymentPageResponse where
  payments : List PaymentResponse
  page : Nat
  size : Nat
  totalElements : Nat
  totalPages : Nat
  deriving DecidableEq

/-- `PaymentService.toPageResponse`. -/
def toPageResponse (page : Page) : PaymentPageResponse where
  payments := page.content.map toResponse
  page := page.number
  size := page.size
  totalElements := page.totalElements
  totalPages := totalPages page.totalElements page.size

/-! ## The query -/

/-- The rows `findBySenderAccountId` selects. -/
def selectBySender (senderAccountId : String) (table : List Payment) : List Payment :=
  table.filter fun p => p.senderAccountId = senderAccountId

/-- `Sort.by(DESC, "createdAt")`. -/
def newestFirst (p : Payment) : Instantᵒᵈ := OrderDual.toDual p.createdAt

/-- `findBySenderAccountId(accountId, pageable)`, where `answer` is what the query would return without
a page: the offset has to fit an int. -/
def findBySenderAccountId (answer : List Payment) (pageable : PageRequest) :
    Except JavaException Page :=
  if intMax < pageable.offset then .error .invalidDataAccessApiUsage
  else .ok
    { content := Query.page pageable.size pageable.page answer
      number := pageable.page
      size := pageable.size
      totalElements := answer.length }

/-- `PaymentService.getPaymentsBySender`. -/
def getPaymentsBySender (answer : List Payment) (pageable : PageRequest) :
    Except JavaException PaymentPageResponse :=
  (findBySenderAccountId answer pageable).map toPageResponse

/-- `PaymentController.getPayments`, once its parameters are read. -/
def getPayments (answer : List Payment) (page size : Int) :
    Except JavaException PaymentPageResponse :=
  let cappedSize := min size 100
  (PageRequest.of page cappedSize).bind (getPaymentsBySender answer)

/-- **What `getPayments` serves.**  A page for a page number that is not negative, a size that is not
less than one, and an offset that fits an int; nothing else. -/
theorem getPayments_eq (answer : List Payment) (page size : Int) :
    getPayments answer page size =
      if page < 0 then .error (.illegalArgument "Page index must not be less than zero")
      else if size < 1 then .error (.illegalArgument "Page size must not be less than one")
      else if (intMax : Int) < page * min size 100 then .error .invalidDataAccessApiUsage
      else .ok
        { payments := (Query.page (min size 100).toNat page.toNat answer).map toResponse
          page := page.toNat
          size := (min size 100).toNat
          totalElements := answer.length
          totalPages := totalPages answer.length (min size 100).toNat } := by
  unfold getPayments PageRequest.of
  dsimp only
  by_cases hpage : page < 0
  · rw [if_pos hpage, if_pos hpage]
    rfl
  rw [if_neg hpage, if_neg hpage]
  by_cases hsize : size < 1
  · rw [dif_pos (by omega), if_pos hsize]
    rfl
  rw [dif_neg (by omega), if_neg hsize]
  show getPaymentsBySender _ _ = _
  have hoffset : intMax < page.toNat * (min size 100).toNat ↔
      (intMax : Int) < page * min size 100 := by
    rw [← Int.ofNat_lt, Int.natCast_mul, Int.toNat_of_nonneg (by omega),
      Int.toNat_of_nonneg (by omega)]
  unfold getPaymentsBySender findBySenderAccountId PageRequest.offset
  dsimp only
  by_cases hmax : intMax < page.toNat * (min size 100).toNat
  · rw [if_pos hmax, if_pos (hoffset.mp hmax)]
    rfl
  · rw [if_neg hmax, if_neg (fun h => hmax (hoffset.mpr h))]
    rfl

/-! ## All pages of a sender -/

/-- The answers to the requests for pages 0 to `totalPages - 1`, each from a query of its own. -/
def allPages (rows : List Payment) (size : Nat) (answers : Nat → List Payment) :
    Except JavaException (List PaymentPageResponse) :=
  (List.range (totalPages rows.length size)).mapM fun k => getPayments (answers k) k size

/-- Whatever order the database chooses for each query, every page is served and the pages put
together have each payment once. -/
def PagesComplete (rows : List Payment) (size : Nat) : Prop :=
  ∀ answers, (∀ k, Query.Ordered newestFirst rows (answers k)) →
    ∃ bodies, allPages rows size answers = .ok bodies ∧
      (bodies.flatMap PaymentPageResponse.payments).Perm (rows.map toResponse)

theorem length_le_totalPages {size : Nat} (hsize : 1 ≤ size) (total : Nat) :
    total ≤ totalPages total size * size := by
  have hmod := Nat.div_add_mod (total + size - 1) size
  have hlt := Nat.mod_lt (total + size - 1) (Nat.lt_of_lt_of_le Nat.zero_lt_one hsize)
  unfold totalPages
  rw [Nat.mul_comm]
  omega

/-- The offset of the last page fits an int. -/
def OffsetsFit (total size : Nat) : Prop := (totalPages total size - 1) * size ≤ intMax

instance (total size : Nat) : Decidable (OffsetsFit total size) :=
  inferInstanceAs (Decidable (_ ≤ _))

theorem getPayments_ok {answer : List Payment} {size k : Nat} (hsize : 1 ≤ size ∧ size ≤ 100)
    (hoffset : k * size ≤ intMax) :
    ∃ body, getPayments answer k size = .ok body ∧
      body.payments = (Query.page size k answer).map toResponse := by
  have hmin : min (size : Int) 100 = size := by omega
  have hfits : ¬ (intMax : Int) < (k : Int) * (size : Int) := by
    rw [← Int.natCast_mul]
    omega
  rw [getPayments_eq, if_neg (by omega), if_neg (by omega), hmin, if_neg hfits]
  exact ⟨_, rfl, rfl⟩

theorem mapM_pages {size : Nat} (hsize : 1 ≤ size ∧ size ≤ 100) (answers : Nat → List Payment)
    (ks : List Nat) (hks : ∀ k ∈ ks, k * size ≤ intMax) :
    ∃ bodies, (ks.mapM fun k => getPayments (answers k) k size) = .ok bodies ∧
      bodies.flatMap PaymentPageResponse.payments =
        (ks.flatMap fun k => Query.page size k (answers k)).map toResponse := by
  induction ks with
  | nil => exact ⟨[], rfl, rfl⟩
  | cons k ks ih =>
      obtain ⟨body, hbody, hpayments⟩ : ∃ body, getPayments (answers k) k size = .ok body ∧
          body.payments = (Query.page size k (answers k)).map toResponse :=
        getPayments_ok hsize (hks k List.mem_cons_self)
      obtain ⟨bodies, hbodies, hrest⟩ := ih fun j hj => hks j (List.mem_cons_of_mem _ hj)
      refine ⟨body :: bodies, ?_, ?_⟩
      · rw [List.mapM_cons, hbody, hbodies]
        rfl
      · rw [List.flatMap_cons, List.flatMap_cons, List.map_append, hpayments, hrest]

/-- A page beyond the int offsets is an error. -/
theorem getPayments_beyond {answer : List Payment} {size k : Nat} (hsize : 1 ≤ size ∧ size ≤ 100)
    (hoffset : intMax < k * size) :
    getPayments answer k size = .error .invalidDataAccessApiUsage := by
  have hmin : min (size : Int) 100 = size := by omega
  have hbeyond : (intMax : Int) < (k : Int) * (size : Int) := by
    rw [← Int.natCast_mul]
    omega
  rw [getPayments_eq, if_neg (by omega), if_neg (by omega), hmin, if_pos hbeyond]

/-- What is served of the pages, when their offsets fit. -/
theorem allPages_ok {rows : List Payment} {size : Nat} (hsize : 1 ≤ size ∧ size ≤ 100)
    (hfits : OffsetsFit rows.length size) (answers : Nat → List Payment) :
    ∃ bodies, allPages rows size answers = .ok bodies ∧
      bodies.flatMap PaymentPageResponse.payments =
        (Query.pagesOf (totalPages rows.length size) size answers).map toResponse := by
  apply mapM_pages hsize
  intro k hk
  have hle : k ≤ totalPages rows.length size - 1 := Nat.le_sub_one_of_lt (List.mem_range.mp hk)
  exact (Nat.mul_le_mul_right size hle).trans hfits

/-- When every page is served, the offsets fit. -/
theorem offsetsFit_of_allPages {rows : List Payment} {size : Nat} (hsize : 1 ≤ size ∧ size ≤ 100)
    {answers : Nat → List Payment} {bodies : List PaymentPageResponse}
    (h : allPages rows size answers = .ok bodies) : OffsetsFit rows.length size := by
  by_contra hbeyond
  unfold OffsetsFit at hbeyond
  have hlast : totalPages rows.length size - 1 ∈ List.range (totalPages rows.length size) := by
    rw [List.mem_range]
    rcases Nat.eq_zero_or_pos (totalPages rows.length size) with hzero | hpos
    · rw [hzero] at hbeyond
      omega
    · omega
  obtain ⟨body, hbody⟩ := Runs.mapM_ok_of_mem h hlast
  rw [getPayments_beyond hsize (not_le.mp hbeyond)] at hbody
  cases hbody

/-- **When the pages of a sender are complete.**  With distinct ids in the table, all pages are served
and have each payment of the sender once, whatever order the database chooses among payments of one
`createdAt`, exactly when the last offset fits an int and no group of payments of one `createdAt`
reaches across the edge of a page. -/
theorem pages_complete_iff {table : List Payment} (hids : (table.map Payment.id).Nodup)
    (senderAccountId : String) {size : Nat} (hsize : 1 ≤ size ∧ size ≤ 100) :
    PagesComplete (selectBySender senderAccountId table) size ↔
      OffsetsFit (selectBySender senderAccountId table).length size ∧
        Query.Aligned newestFirst (selectBySender senderAccountId table) size := by
  generalize hrows : selectBySender senderAccountId table = rows
  have hdistinct : (rows.map toResponse).Nodup := by
    have hselected : (rows.map Payment.id).Nodup := by
      rw [← hrows]
      exact hids.sublist (List.filter_sublist.map Payment.id)
    apply List.Nodup.of_map PaymentResponse.id
    rw [List.map_map]
    exact hselected
  have hpages := @Query.pages_perm_iff _ _ _ newestFirst rows _ _ size toResponse hdistinct
    (length_le_totalPages hsize.1 rows.length)
  constructor
  · intro h
    have hfits : OffsetsFit rows.length size := by
      obtain ⟨l, hl⟩ := Query.exists_ordered newestFirst rows
      obtain ⟨bodies, hbodies, -⟩ := h (fun _ => l) fun _ => hl
      exact offsetsFit_of_allPages hsize hbodies
    refine ⟨hfits, hpages.mp fun answers hanswers => ?_⟩
    obtain ⟨bodies, hbodies, hperm⟩ := h answers hanswers
    obtain ⟨bodies', hbodies', hserved⟩ := allPages_ok hsize hfits answers
    rw [hbodies, Except.ok.injEq] at hbodies'
    rwa [hbodies', hserved] at hperm
  · rintro ⟨hfits, haligned⟩ answers hanswers
    obtain ⟨bodies, hbodies, hserved⟩ := allPages_ok hsize hfits answers
    refine ⟨bodies, hbodies, ?_⟩
    rw [hserved]
    exact hpages.mpr haligned answers hanswers

/-- A payment of 10.00 GBP, made at some instant. -/
def paymentAt (id : UUID) (reference : String) (createdAt : Instant) : Payment where
  id := id
  paymentReference := reference
  senderAccountId := "GB29NWBK60161331926819"
  receiverAccountId := "GB94BARC10201530093459"
  receiverBankCode := "BARCGB22"
  amountMinorUnits := 1000
  currency := .GBP
  status := .PENDING
  paymentType := .DOMESTIC
  description := none
  clearingReference := none
  idempotencyKey := none
  retryCount := 0
  failureReason := none
  createdAt := createdAt
  updatedAt := createdAt
  createdBy := none
  version := 0

/-- Two payments made one after the other. -/
theorem pages_complete_distinct :
    PagesComplete (selectBySender "GB29NWBK60161331926819"
      [paymentAt 7 "PAY-20240315-000001-AB12" 1, paymentAt 8 "PAY-20240315-000002-CD34" 2]) 1 := by
  refine (pages_complete_iff (by decide) _ (by decide)).mpr ⟨by decide, ?_⟩
  exact Query.aligned_of_nodup (by decide) 1

/-- Two payments made in the same millisecond: the queries for the two pages may each begin with the
first one, which is then on both pages, and the second on none. -/
theorem pages_repeat :
    (∃ p q bodies, p.id ≠ q.id ∧
      Query.Ordered newestFirst [p, q] [p, q] ∧ Query.Ordered newestFirst [p, q] [q, p] ∧
      allPages [p, q] 1 (fun k => if k = 0 then [p, q] else [q, p]) = .ok bodies ∧
      bodies.flatMap PaymentPageResponse.payments = [toResponse p, toResponse p]) ∧
    ¬ ∀ (table : List Payment) (senderAccountId : String) (size : Nat),
      (table.map Payment.id).Nodup → 1 ≤ size ∧ size ≤ 100 →
      PagesComplete (selectBySender senderAccountId table) size := by
  have hsame : Query.Ordered newestFirst
      [paymentAt 7 "PAY-20240315-000001-AB12" 1, paymentAt 8 "PAY-20240315-000002-CD34" 1]
      [paymentAt 7 "PAY-20240315-000001-AB12" 1, paymentAt 8 "PAY-20240315-000002-CD34" 1] :=
    ⟨.refl _, by decide⟩
  have hswapped : Query.Ordered newestFirst
      [paymentAt 7 "PAY-20240315-000001-AB12" 1, paymentAt 8 "PAY-20240315-000002-CD34" 1]
      [paymentAt 8 "PAY-20240315-000002-CD34" 1, paymentAt 7 "PAY-20240315-000001-AB12" 1] :=
    ⟨.swap .., by decide⟩
  refine ⟨⟨_, _, _, by decide, hsame, hswapped, rfl, rfl⟩, fun hall => ?_⟩
  have hcomplete := hall [paymentAt 7 "PAY-20240315-000001-AB12" 1,
    paymentAt 8 "PAY-20240315-000002-CD34" 1] "GB29NWBK60161331926819" 1 (by decide) (by decide)
  obtain ⟨bodies, hbodies, hperm⟩ := hcomplete (fun k => if k = 0 then _ else _) fun k => by
    split
    · exact hsame
    · exact hswapped
  obtain rfl := Except.ok.inj hbodies
  exact absurd hperm (by decide)

end GlobalPayments.Payments
