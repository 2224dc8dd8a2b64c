/-
The pages of the lists of executions and of workflows.

`list_executions` sorts by `created_at` and `list_workflows` by `updated_at` alone, so the
database may put rows with one time in any order, and in another one for the next page.  A
row can then be on two pages, and its neighbour on none (`executions_repeated`).

`pages_complete_iff` says that this is all that can happen: where no rows with one time stand
on both sides of the end of a page, the pages have every row once, in every order.
-/
import GraphPilot.Relational.Paging
import GraphPilot.Tenancy.Invariants

namespace GraphPilot.Tenancy

open Python Relational
open ExecutionService (statusText)
open TwoRuns (exec)

local instance keyedWorkflow : Keyed Workflow Uuid := ⟨rowId .workflows⟩

/-! ### Lists in an order that the database chooses -/

/-- An order that `ORDER BY key DESC` allows for all rows. -/
def Chooses {ρ : Type} (key : ρ → ℕ) (order : List ρ → List ρ) : Prop :=
  ∀ rows, Paging.Answers key rows (order rows)

section Lists

variable (host : Host) (tenantId : Uuid)

/-- The executions that a list selects. -/
def executionsListed (workflowId : Option Uuid) (statusFilter : Option String) (x : Execution) :
    Bool :=
  x.tenantId = tenantId && workflowId.all (x.workflowId = ·) &&
    statusFilter.all (statusText x.status = ·)

/-- `list_executions`, with its rows in this order. -/
def listExecutionsBy (order : List Execution → List Execution) (workflowId : Option Uuid)
    (statusFilter : Option String) (page perPage : ℤ) : Service (Page Execution) := do
  let statusFilter := statusFilter.filter (· ≠ "")
  raiseIf (∃ s ∈ statusFilter, s ∉ validStatuses)
    (.http 400 ("Invalid status filter. Must be one of: " ++ ", ".intercalate validStatuses))
  let query := executionsListed tenantId workflowId statusFilter
  let total := (← select .executions query).length
  let rows ← select .executions query
  let items ← ofExcept (paginate page perPage (order rows))
  return { items, total, page, perPage }

theorem listExecutions_eq :
    listExecutions tenantId =
      listExecutionsBy tenantId (·.insertionSort fun x y => y.createdAt ≤ x.createdAt) := rfl

/-- The workflows that a list selects. -/
def workflowsListed (search : Option String) (x : Workflow) : Bool :=
  x.tenantId = tenantId && x.isActive &&
    (search.filter (· ≠ "")).all fun s => host.ilike x.name s!"%{s}%"

/-- `list_workflows`, with its rows in this order. -/
def listWorkflowsBy (order : List Workflow → List Workflow) (page perPage : ℤ)
    (search : Option String) : Service (List Workflow × ℕ) := do
  let baseFilter := workflowsListed host tenantId search
  let total := (← select .workflows baseFilter).length
  let rows ← select .workflows baseFilter
  let items ← ofExcept (paginate page perPage (order rows))
  return (items, total)

theorem listWorkflows_eq (page perPage : ℤ) (search : Option String) :
    listWorkflows host tenantId page perPage search =
      listWorkflowsBy host tenantId (·.insertionSort fun x y => y.updatedAt ≤ x.updatedAt)
        page perPage search := rfl

end Lists

/-! ### Pages -/

/-- The calls return pages that have each of the rows once, with their number. -/
def PagesComplete {ρ : Type} (rows : List ρ) (size : ℕ)
    (call : ℕ → Except Exn (List ρ × ℕ)) : Prop :=
  ∃ pages : ℕ → List ρ, (∀ k, call k = .ok (pages k, rows.length)) ∧
    ∀ n, rows.length ≤ n * size → ((List.range n).flatMap pages).Perm rows

section Pages

variable {ρ : Type} {key : ρ → ℕ} {rows : List ρ} {size : ℕ}

theorem paginate_page (size k : ℕ) (rows : List ρ) :
    paginate (k + 1) size rows = .ok (Paging.page size k rows) := by
  have hoffset : ((k : ℤ) + 1 - 1) * (size : ℤ) = ((k * size : ℕ) : ℤ) := by
    push_cast
    ring
  unfold paginate Paging.page
  dsimp only
  rw [hoffset, if_neg (by omega), if_neg (by omega), Int.toNat_natCast, Int.toNat_natCast]

/-- The pages of a list are complete, whatever the orders, if nothing straddles them. -/
theorem pagesComplete_iff (hsize : 0 < size) (hrows : rows.Nodup)
    {call : (List ρ → List ρ) → ℕ → Except Exn (List ρ × ℕ)}
    (hcall : ∀ order k, call order k = .ok (Paging.page size k (order rows), rows.length)) :
    (∀ order : ℕ → List ρ → List ρ, (∀ k, Chooses key (order k)) →
        PagesComplete rows size fun k => call (order k) k) ↔
      ¬ Paging.Straddles key size rows := by
  rw [← Paging.pages_perm_iff hsize hrows]
  constructor
  · intro h answers hanswers n hn
    -- any answers for these rows are those of some orders
    obtain ⟨order, horder, heq⟩ : ∃ order : ℕ → List ρ → List ρ,
        (∀ k, Chooses key (order k)) ∧ ∀ k, order k rows = answers k := by
      classical
      choose sorted hsorted using Paging.exists_answers key
      refine ⟨fun k rows' => if rows' = rows then answers k else sorted rows', ?_, ?_⟩
      · intro k rows'
        dsimp only
        split
        · rename_i hrows'
          rw [hrows']
          exact hanswers k
        · exact hsorted rows'
      · intro k
        exact if_pos rfl
    obtain ⟨pages, hpages, hperm⟩ := h order horder
    have hsame : pages = fun k => Paging.page size k (answers k) := by
      funext k
      have hk := hpages k
      dsimp only at hk
      rw [hcall, heq] at hk
      exact (Prod.mk.inj (Except.ok.inj hk)).1.symm
    rw [← hsame]
    exact hperm n hn
  · intro h order horder
    exact ⟨_, fun k => hcall (order k) k, h _ fun k => horder k rows⟩

end Pages

/-! ### Executions and workflows -/

section Services

variable {host : Host} {tenantId : Uuid} {workflowId : Option Uuid} {statusFilter : Option String}
variable {search : Option String} {size : ℕ} {s : Session}

/-- The filter is one that `list_executions` accepts. -/
def ValidFilter (statusFilter : Option String) : Prop :=
  ∀ status ∈ statusFilter.filter (· ≠ ""), status ∈ validStatuses

/-- The rows of a table that a query selects are different ones. -/
theorem nodup_filter (n : TableName) (p : RowOf n → Bool) :
    ((s.rows n).rows.filter p).Nodup :=
  (List.Nodup.of_map _ (s.rows n).nodup).filter _

theorem exec_listExecutionsBy {order : List Execution → List Execution} (k : ℕ)
    (hfilter : ValidFilter statusFilter) :
    exec (listExecutionsBy tenantId order workflowId statusFilter (k + 1) size) s =
      (.ok ⟨Paging.page size k (order ((s.rows .executions).rows.filter
          (executionsListed tenantId workflowId (statusFilter.filter (· ≠ ""))))),
        ((s.rows .executions).rows.filter
          (executionsListed tenantId workflowId (statusFilter.filter (· ≠ "")))).length,
        k + 1, size⟩, s) := by
  have hvalid : ¬ ∃ status ∈ statusFilter.filter (· ≠ ""), status ∉ validStatuses := by
    rintro ⟨status, hmem, hnot⟩
    exact hnot (hfilter status hmem)
  unfold listExecutionsBy raiseIf
  dsimp only
  rw [if_neg hvalid]
  simp only [paginate_page]
  rfl

theorem exec_listWorkflowsBy {order : List Workflow → List Workflow} (k : ℕ) :
    exec (listWorkflowsBy host tenantId order (k + 1) size search) s =
      (.ok (Paging.page size k (order ((s.rows .workflows).rows.filter
          (workflowsListed host tenantId search))),
        ((s.rows .workflows).rows.filter (workflowsListed host tenantId search)).length), s) := by
  unfold listWorkflowsBy
  dsimp only
  simp only [paginate_page]
  rfl

/-- The executions that `list_executions` matches. -/
def matchingExecutions (tenantId : Uuid) (workflowId : Option Uuid) (statusFilter : Option String)
    (s : Session) : List Execution :=
  (s.rows .executions).rows.filter
    (executionsListed tenantId workflowId (statusFilter.filter (· ≠ "")))

/-- The workflows that `list_workflows` matches. -/
def matchingWorkflows (host : Host) (tenantId : Uuid) (search : Option String) (s : Session) :
    List Workflow :=
  (s.rows .workflows).rows.filter (workflowsListed host tenantId search)

/-- The page `k` of the executions, and their number. -/
def executionsPage (tenantId : Uuid) (workflowId : Option Uuid) (statusFilter : Option String)
    (size : ℕ) (s : Session) (order : List Execution → List Execution) (k : ℕ) :
    Except Exn (List Execution × ℕ) :=
  (exec (listExecutionsBy tenantId order workflowId statusFilter (k + 1) size) s).1.map
    fun p => (p.items, p.total)

/-- The page `k` of the workflows, and their number. -/
def workflowsPage (host : Host) (tenantId : Uuid) (search : Option String) (size : ℕ) (s : Session)
    (order : List Workflow → List Workflow) (k : ℕ) : Except Exn (List Workflow × ℕ) :=
  (exec (listWorkflowsBy host tenantId order (k + 1) size search) s).1

theorem executions_pages_iff (hsize : 0 < size) (hfilter : ValidFilter statusFilter) :
    (∀ order : ℕ → List Execution → List Execution,
        (∀ k, Chooses (·.createdAt.micros) (order k)) →
          PagesComplete (matchingExecutions tenantId workflowId statusFilter s) size fun k =>
            executionsPage tenantId workflowId statusFilter size s (order k) k) ↔
      ¬ Paging.Straddles (·.createdAt.micros) size
        (matchingExecutions tenantId workflowId statusFilter s) := by
  refine pagesComplete_iff hsize (nodup_filter .executions _) fun order k => ?_
  unfold executionsPage
  rw [exec_listExecutionsBy k hfilter]
  rfl

theorem workflows_pages_iff (hsize : 0 < size) :
    (∀ order : ℕ → List Workflow → List Workflow,
        (∀ k, Chooses (·.updatedAt.micros) (order k)) →
          PagesComplete (matchingWorkflows host tenantId search s) size fun k =>
            workflowsPage host tenantId search size s (order k) k) ↔
      ¬ Paging.Straddles (·.updatedAt.micros) size (matchingWorkflows host tenantId search s) := by
  refine pagesComplete_iff hsize (nodup_filter .workflows _) fun order k => ?_
  unfold workflowsPage
  rw [exec_listWorkflowsBy k]

/-- **The pages have every row once**, in every order that the database may choose, if and only
if no rows with one time stand on both sides of the end of a page. -/
theorem pages_complete_iff (host : Host) (tenantId : Uuid) (workflowId : Option Uuid)
    (search : Option String) (s : Session) (hsize : 0 < size)
    (hfilter : ValidFilter statusFilter) :
    ((∀ order : ℕ → List Execution → List Execution,
        (∀ k, Chooses (·.createdAt.micros) (order k)) →
          PagesComplete (matchingExecutions tenantId workflowId statusFilter s) size fun k =>
            executionsPage tenantId workflowId statusFilter size s (order k) k) ↔
      ¬ Paging.Straddles (·.createdAt.micros) size
        (matchingExecutions tenantId workflowId statusFilter s)) ∧
    ((∀ order : ℕ → List Workflow → List Workflow,
        (∀ k, Chooses (·.updatedAt.micros) (order k)) →
          PagesComplete (matchingWorkflows host tenantId search s) size fun k =>
            workflowsPage host tenantId search size s (order k) k) ↔
      ¬ Paging.Straddles (·.updatedAt.micros) size (matchingWorkflows host tenantId search s)) :=
  ⟨executions_pages_iff hsize hfilter, workflows_pages_iff hsize⟩

end Services

namespace Sample

def pendingExecution (id : String) : RowOf .executions where
  id := ⟨id⟩
  tenantId := ⟨"t"⟩
  workflowId := ⟨"w"⟩
  status := .pending
  inputData := .null
  outputData := .null
  totalTokens := 0
  totalCost := 0
  errorMessage := none
  startedAt := none
  completedAt := none
  createdAt := ⟨0, DateTime.zero_inRange⟩

/-- Two executions that were created at once. -/
def together : Database :=
  (Tables.insert (fun _ => .empty) .executions (pendingExecution "x")).insert .executions
    (pendingExecution "y")

def reading : Session := ⟨together, together, fun _ => none⟩

theorem together_straddles : Paging.Straddles (·.createdAt.micros) 1
    (matchingExecutions ⟨"t"⟩ none none reading) := by
  have hmatching : matchingExecutions ⟨"t"⟩ none none reading =
      [pendingExecution "x", pendingExecution "y"] := by
    with_unfolding_all rfl
  rw [hmatching]
  exact ⟨0, 1, by decide, by decide⟩

end Sample

theorem pages_complete_iff_two :
    ((∀ order : ℕ → List Execution → List Execution,
        (∀ k, Chooses (·.createdAt.micros) (order k)) →
          PagesComplete (matchingExecutions ⟨"t"⟩ none none Sample.reading) 2 fun k =>
            executionsPage ⟨"t"⟩ none none 2 Sample.reading (order k) k) ↔
      ¬ Paging.Straddles (·.createdAt.micros) 2
        (matchingExecutions ⟨"t"⟩ none none Sample.reading)) ∧
    ((∀ order : ℕ → List Workflow → List Workflow,
        (∀ k, Chooses (·.updatedAt.micros) (order k)) →
          PagesComplete (matchingWorkflows Sample.host ⟨"t"⟩ none Sample.reading) 2 fun k =>
            workflowsPage Sample.host ⟨"t"⟩ none 2 Sample.reading (order k) k) ↔
      ¬ Paging.Straddles (·.updatedAt.micros) 2
        (matchingWorkflows Sample.host ⟨"t"⟩ none Sample.reading)) :=
  @pages_complete_iff none 2 Sample.host ⟨"t"⟩ none none Sample.reading Nat.two_pos
    fun _ hmem => by cases hmem

/-- Pages of one execution each. -/
theorem executions_repeated : ¬ ∀ (tenantId : Uuid) (workflowId : Option Uuid)
    (statusFilter : Option String) (size : ℕ) (s : Session), 0 < size →
    ValidFilter statusFilter → ∀ order : ℕ → List Execution → List Execution,
      (∀ k, Chooses (·.createdAt.micros) (order k)) →
        PagesComplete (matchingExecutions tenantId workflowId statusFilter s) size fun k =>
          executionsPage tenantId workflowId statusFilter size s (order k) k := by
  intro h
  have hfilter : ValidFilter none := fun _ hmem => by cases hmem
  have hpages := h ⟨"t"⟩ none none 1 Sample.reading Nat.one_pos hfilter
  exact (executions_pages_iff Nat.one_pos hfilter).mp hpages Sample.together_straddles

end GraphPilot.Tenancy
