import Nephio.Controllers.Client
import Nephio.Data.Keyed
import Nephio.Go.Strings

/-!
# The SPIRE bootstrap controller

`controllers/pkg/reconcilers/spire-bootstrap/spiffeutils.go`: `updateClusterListConfigMap` adds a
cluster to the list of clusters of the SPIRE server, which is a text in a ConfigMap.
-/

namespace Nephio.Controllers.SpireBootstrap

/-- The `Data` of the ConfigMap `spire/clusters`. -/
abbrev Data := List (String × String)

/-- One call: its cluster, and how its Get and Update end. -/
structure Call where
  clusterName : String
  get : Option ApiError := none
  update : Option ApiError := none

def clustersConfKey : String := "clusters.conf"

/-- The block of a cluster. -/
def newCluster (clusterName : String) : String :=
  "      \"" ++ clusterName ++ "\" = \x7b\n" ++
  "        service_account_allow_list = [\"spire:spire-agent\"]\n" ++
  "        kube_config_file = \"/run/spire/kubeconfigs/kubeconfig-" ++ clusterName ++ "\"\n" ++
  "      \x7d"

/-- `fmt.Sprintf` with `"%s"`. -/
def quoted (clusterName : String) : String := "\"" ++ clusterName ++ "\""

/-- The text that is edited: what is stored, or an empty list. -/
def clustersConf (data : Data) : String :=
  let conf := ((Keyed.lookup Prod.fst clustersConfKey data).map Prod.snd).getD "clusters = \x7b\n\x7d"
  Go.trimSpace (Go.trimPrefix conf "|")

/-- The text with a block before its last closing brace. -/
def insertCluster (conf clusterName : String) : Option String :=
  (Go.lastIndex conf '\x7d').map fun lastBraceIndex =>
    String.ofList (conf.toList.take lastBraceIndex) ++ newCluster clusterName ++ "\n" ++
      String.ofList (conf.toList.drop lastBraceIndex)

/-- The text as it is stored. -/
def formattedConf (conf : String) : String := "|\n    " ++ Go.replaceAll conf '\n' "\n    "

/-- `updateClusterListConfigMap`. -/
def updateClusterListConfigMap (data : Data) (call : Call) : Except String Data :=
  match call.get with
  | some err => .error ("failed to create kubeconfig CM: " ++ err.msg)
  | none =>
    let conf := clustersConf data
    if Go.contains conf (quoted call.clusterName) then .ok data
    else
      match insertCluster conf call.clusterName with
      | none => .error "invalid clusters.conf format"
      | some conf =>
        match call.update with
        | some err => .error ("error updating Cluster List ConfigMap: " ++ err.msg)
        | none => .ok [(clustersConfKey, formattedConf conf)]

end Nephio.Controllers.SpireBootstrap
