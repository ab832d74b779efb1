import Nephio.Controllers.GitResource

/-!
# The repository reconciler

`controllers/pkg/reconcilers/repository/reconciler.go`. The git server keeps repositories by their
owner and name, and says what URL a repository is cloned from.
-/

namespace Nephio.Controllers.Repository

/-- `RepositorySpec`, as far as the git server is told of it. -/
structure Spec where
  description : Option String := none
  «private» : Option Bool := none
  issueLabels : Option String := none
  gitignores : Option String := none
  license : Option String := none
  readme : Option String := none
  defaultBranch : Option String := none
  trustModel : Option String := none
deriving DecidableEq, Repr

/-- `CreateRepoOption`. -/
structure CreateRepoOption where
  name : String
  description : String := ""
  «private» : Bool := false
  issueLabels : String := ""
  autoInit : Bool := false
  gitignores : String := ""
  license : String := ""
  readme : String := ""
  defaultBranch : String := ""
  trustModel : String := ""
deriving DecidableEq, Repr

/-- `EditRepoOption`. -/
structure EditRepoOption where
  name : Option String := none
  description : Option String := none
  «private» : Option Bool := none
deriving DecidableEq, Repr

/-- A repository of the git server. -/
structure Repo where
  owner : String
  options : CreateRepoOption
deriving DecidableEq, Repr

def Repo.key (repo : Repo) : String × String := (repo.owner, repo.options.name)

/-- The git server, as its user sees it. -/
structure Git where
  userName : String := "nephio"
  repos : List Repo := []
deriving DecidableEq, Repr

/-- How the calls for a repository end. -/
structure Calls where
  getMyUserInfo : Option ApiError := none
  getRepo : Option ApiError := none
  createRepo : Reply := .done
  editRepo : Reply := .done
  deleteRepo : Reply := .done

variable (cloneURL : String → String → String)

/-- `DeleteRepo`: the git server answers with an error where there is no such repository. -/
def Git.deleteRepo (g : Git) (reply : Reply) (owner name : String) : Option ApiError × Git :=
  match Keyed.lookup Repo.key (owner, name) g.repos with
  | none => (some { msg := "404 Not Found" }, g)
  | some _ =>
    (reply.error,
      if reply.applied then { g with repos := Keyed.drop Repo.key (owner, name) g.repos } else g)

/-- `CreateRepo`: the repository belongs to the user. -/
def Git.createRepo (g : Git) (reply : Reply) (options : CreateRepoOption) :
    Option ApiError × Git :=
  match Keyed.lookup Repo.key (g.userName, options.name) g.repos with
  | some _ => (some { msg := "The repository with the same name already exists." }, g)
  | none =>
    (reply.error,
      if reply.applied then
        { g with repos := Keyed.upsert Repo.key ⟨g.userName, options⟩ g.repos }
      else g)

/-- `EditRepo`: what is nil stays as it is. -/
def Git.editRepo (g : Git) (reply : Reply) (owner name : String) (options : EditRepoOption) :
    Option ApiError × Git :=
  match Keyed.lookup Repo.key (owner, name) g.repos with
  | none => (some { msg := "404 Not Found" }, g)
  | some repo =>
    (reply.error,
      if reply.applied then
        { g with repos := Keyed.upsert Repo.key { repo with options :=
            { repo.options with
              name := options.name.getD repo.options.name
              description := options.description.getD repo.options.description
              «private» := options.private.getD repo.options.private } } g.repos }
      else g)

/-- The options for a repository that is created. -/
def createOptions (cr : GitResource.Resource Spec) : CreateRepoOption where
  name := cr.key.name
  description := cr.spec.description.getD ""
  «private» := cr.spec.private.getD false
  issueLabels := cr.spec.issueLabels.getD ""
  gitignores := cr.spec.gitignores.getD ""
  license := cr.spec.license.getD ""
  readme := cr.spec.readme.getD ""
  defaultBranch := cr.spec.defaultBranch.getD ""
  trustModel := cr.spec.trustModel.getD ""
  autoInit := true

/-- The options for a repository that is edited. -/
def editOptions (cr : GitResource.Resource Spec) : EditRepoOption where
  name := some cr.key.name
  description := cr.spec.description
  «private» := cr.spec.private

/-- `upsertRepo`: any error of `GetRepo` counts as a repository that is missing. -/
def upsertRepo (calls : Calls) (cr : GitResource.Resource Spec) (g : Git) :
    Except String (GitResource.Resource Spec) × Git :=
  match calls.getMyUserInfo with
  | some err => (.error err.msg, g)
  | none =>
    let found := Keyed.lookup Repo.key (g.userName, cr.key.name) g.repos
    let ensured := { cr with url := some (cloneURL g.userName cr.key.name) }
    if calls.getRepo.isSome || found.isNone then
      let created := g.createRepo calls.createRepo (createOptions cr)
      match created.1 with
      | some _ => (.error "cannot create repo", created.2)
      | none => (.ok ensured, created.2)
    else
      let edited := g.editRepo calls.editRepo g.userName cr.key.name (editOptions cr)
      match edited.1 with
      | some _ => (.error "cannot update repo", edited.2)
      | none => (.ok ensured, edited.2)

/-- `deleteRepo`. -/
def deleteRepo (calls : Calls) (cr : GitResource.Resource Spec) (g : Git) : Option String × Git :=
  match calls.getMyUserInfo with
  | some err => (some err.msg, g)
  | none =>
    let deleted := g.deleteRepo calls.deleteRepo g.userName cr.key.name
    (deleted.1.map ApiError.msg, deleted.2)

def actions : GitResource.Actions Spec Git Calls where
  delete := deleteRepo
  ensure := upsertRepo cloneURL
  cannotGet := {}

/-- `Reconcile`. -/
def reconcile (call : GitResource.Call Calls) (w : GitResource.World Spec Git) :
    GitResource.Outcome Spec Git :=
  GitResource.reconcile (actions cloneURL) call w

end Nephio.Controllers.Repository
