import PodSizing.Pod.Shape

/-!
# Shapes of a pod's fields

The members that a pod and its parts may have. Parts that sizing looks into are left out of the
shapes of their owners here: they have types of their own.
-/
namespace PodSizing.Schema
open Shape (optional required)

abbrev Fields := List (String × Bool × Shape)

def texts : Shape := .list .text

def textTable : Shape := .table .text

def textFields (names : List String) : Fields := names.map fun name => optional name .text

def flagFields (names : List String) : Fields := names.map fun name => optional name .flag

/-- A reference to an object by name. -/
def reference : Shape := .record [required "name" .text]

def selectorTerms : Shape :=
  .list (.record [required "key" .text, required "operator" .text, optional "values" texts])

def labelSelector : Shape :=
  .record [optional "matchExpressions" selectorTerms, optional "matchLabels" textTable]

def optionalReference : Shape := .record [required "name" .text, optional "optional" .flag]

def keyReference : Shape :=
  .record [required "key" .text, required "name" .text, optional "optional" .flag]

def fieldReference : Shape := .record [optional "apiVersion" .text, required "fieldPath" .text]

def resourceFieldReference : Shape :=
  .record [optional "containerName" .text, optional "divisor" .text, required "resource" .text]

def managedFields : Shape :=
  .list (.record (textFields ["apiVersion", "fieldsType"] ++ [optional "fieldsV1" .anything]
    ++ textFields ["manager", "operation", "subresource"] ++ [optional "time" .timestamp]))

def ownerReferences : Shape :=
  .list (.record [required "apiVersion" .text, optional "blockOwnerDeletion" .flag,
    optional "controller" .flag, required "kind" .text, required "name" .text,
    required "uid" .text])

/-- Metadata without names, version, labels, annotations, deletion time and managed fields. -/
def metadata : Fields :=
  [optional "creationTimestamp" .timestamp, optional "deletionGracePeriodSeconds" .int64,
   optional "finalizers" texts, optional "generation" .int64,
   optional "ownerReferences" ownerReferences, optional "selfLink" .text, optional "uid" .text]

def fullMetadata : Shape :=
  .record (metadata ++ textFields ["generateName", "name", "namespace", "resourceVersion"]
    ++ [optional "annotations" textTable, optional "labels" textTable,
        optional "deletionTimestamp" .timestamp, optional "managedFields" managedFields])

def execAction : Shape := .record [optional "command" texts]

def httpGetAction : Shape :=
  .record [optional "host" .text,
    optional "httpHeaders" (.list (.record [required "name" .text, required "value" .text])),
    optional "path" .text, required "port" .intOrText, optional "scheme" .text]

def tcpSocketAction : Shape := .record [optional "host" .text, required "port" .intOrText]

def lifecycleHandler : Shape :=
  .record [optional "exec" execAction, optional "httpGet" httpGetAction,
    optional "sleep" (.record [required "seconds" .int64]), optional "tcpSocket" tcpSocketAction]

def lifecycle : Shape :=
  .record [optional "postStart" lifecycleHandler, optional "preStop" lifecycleHandler,
    optional "stopSignal" .text]

def probe : Shape :=
  .record [optional "exec" execAction, optional "failureThreshold" .int32,
    optional "grpc" (.record [required "port" .int32, optional "service" .text]),
    optional "httpGet" httpGetAction, optional "initialDelaySeconds" .int32,
    optional "periodSeconds" .int32, optional "successThreshold" .int32,
    optional "tcpSocket" tcpSocketAction, optional "terminationGracePeriodSeconds" .int64,
    optional "timeoutSeconds" .int32]

def environment : Shape :=
  .list (.record [required "name" .text, optional "value" .text,
    optional "valueFrom" (.record [optional "configMapKeyRef" keyReference,
      optional "fieldRef" fieldReference, optional "resourceFieldRef" resourceFieldReference,
      optional "secretKeyRef" keyReference])])

def environmentSources : Shape :=
  .list (.record [optional "configMapRef" optionalReference, optional "prefix" .text,
    optional "secretRef" optionalReference])

def seLinuxOptions : Shape := .record (textFields ["level", "role", "type", "user"])

def profile : Shape := .record [optional "localhostProfile" .text, required "type" .text]

def windowsOptions : Shape :=
  .record [optional "gmsaCredentialSpec" .text, optional "gmsaCredentialSpecName" .text,
    optional "hostProcess" .flag, optional "runAsUserName" .text]

def securityContext : Shape :=
  .record [optional "allowPrivilegeEscalation" .flag, optional "appArmorProfile" profile,
    optional "capabilities" (.record [optional "add" texts, optional "drop" texts]),
    optional "privileged" .flag, optional "procMount" .text,
    optional "readOnlyRootFilesystem" .flag, optional "runAsGroup" .int64,
    optional "runAsNonRoot" .flag, optional "runAsUser" .int64,
    optional "seLinuxOptions" seLinuxOptions, optional "seccompProfile" profile,
    optional "windowsOptions" windowsOptions]

def ports : Shape :=
  .list (.record [required "containerPort" .int32, optional "hostIP" .text,
    optional "hostPort" .int32, optional "name" .text, optional "protocol" .text])

def volumeDevices : Shape :=
  .list (.record [required "devicePath" .text, required "name" .text])

def volumeMounts : Shape :=
  .list (.record [required "mountPath" .text, optional "mountPropagation" .text,
    required "name" .text, optional "readOnly" .flag, optional "recursiveReadOnly" .text,
    optional "subPath" .text, optional "subPathExpr" .text])

def resourceClaims : Shape :=
  .list (.record [required "name" .text, optional "request" .text])

def resources : Shape :=
  .record [optional "claims" resourceClaims, optional "limits" textTable,
    optional "requests" textTable]

def resizePolicy : Shape :=
  .list (.record [required "resourceName" .text, required "restartPolicy" .text])

/-- A container without its name, probes of startup and readiness, resources and resize policy. -/
def container : Fields :=
  [optional "args" texts, optional "command" texts, optional "env" environment,
   optional "envFrom" environmentSources, optional "image" .text,
   optional "imagePullPolicy" .text, optional "lifecycle" lifecycle,
   optional "livenessProbe" probe, optional "ports" ports, optional "restartPolicy" .text,
   optional "securityContext" securityContext, optional "stdin" .flag,
   optional "stdinOnce" .flag, optional "terminationMessagePath" .text,
   optional "terminationMessagePolicy" .text, optional "tty" .flag,
   optional "volumeDevices" volumeDevices, optional "volumeMounts" volumeMounts,
   optional "workingDir" .text]

/-- A container outside of the list that sizing looks into. -/
def plainContainer : Fields :=
  container ++ [required "name" .text, optional "readinessProbe" probe,
    optional "resizePolicy" resizePolicy, optional "resources" resources,
    optional "startupProbe" probe]

def keysToPaths : Shape :=
  .list (.record [required "key" .text, optional "mode" .int32, required "path" .text])

def downwardItems : Shape :=
  .list (.record [optional "fieldRef" fieldReference, optional "mode" .int32,
    required "path" .text, optional "resourceFieldRef" resourceFieldReference])

def claimSpec : Shape :=
  .record [optional "accessModes" texts,
    optional "dataSource"
      (.record [optional "apiGroup" .text, required "kind" .text, required "name" .text]),
    optional "dataSourceRef"
      (.record [optional "apiGroup" .text, required "kind" .text, required "name" .text,
        optional "namespace" .text]),
    optional "resources" (.record [optional "limits" textTable, optional "requests" textTable]),
    optional "selector" labelSelector, optional "storageClassName" .text,
    optional "volumeAttributesClassName" .text, optional "volumeMode" .text,
    optional "volumeName" .text]

def projections : Shape :=
  .list (.record [
    optional "clusterTrustBundle" (.record [optional "labelSelector" labelSelector,
      optional "name" .text, optional "optional" .flag, required "path" .text,
      optional "signerName" .text]),
    optional "configMap" (.record [optional "items" keysToPaths, required "name" .text,
      optional "optional" .flag]),
    optional "downwardAPI" (.record [optional "items" downwardItems]),
    optional "secret" (.record [optional "items" keysToPaths, required "name" .text,
      optional "optional" .flag]),
    optional "serviceAccountToken" (.record [optional "audience" .text,
      optional "expirationSeconds" .int64, required "path" .text])])

def cloudVolumes : Fields :=
  [optional "awsElasticBlockStore" (.record [optional "fsType" .text, optional "partition" .int32,
     optional "readOnly" .flag, required "volumeID" .text]),
   optional "azureDisk" (.record [optional "cachingMode" .text, required "diskName" .text,
     required "diskURI" .text, optional "fsType" .text, optional "kind" .text,
     optional "readOnly" .flag]),
   optional "azureFile" (.record [optional "readOnly" .flag, required "secretName" .text,
     required "shareName" .text]),
   optional "gcePersistentDisk" (.record [optional "fsType" .text, optional "partition" .int32,
     required "pdName" .text, optional "readOnly" .flag]),
   optional "photonPersistentDisk" (.record [optional "fsType" .text, required "pdID" .text]),
   optional "portworxVolume" (.record [optional "fsType" .text, optional "readOnly" .flag,
     required "volumeID" .text]),
   optional "vsphereVolume" (.record [optional "fsType" .text, optional "storagePolicyID" .text,
     optional "storagePolicyName" .text, required "volumePath" .text])]

def networkVolumes : Fields :=
  [optional "cephfs" (.record [required "monitors" texts, optional "path" .text,
     optional "readOnly" .flag, optional "secretFile" .text, optional "secretRef" reference,
     optional "user" .text]),
   optional "cinder" (.record [optional "fsType" .text, optional "readOnly" .flag,
     optional "secretRef" reference, required "volumeID" .text]),
   optional "fc" (.record [optional "fsType" .text, optional "lun" .int32,
     optional "readOnly" .flag, optional "targetWWNs" texts, optional "wwids" texts]),
   optional "flocker" (.record (textFields ["datasetName", "datasetUUID"])),
   optional "glusterfs" (.record [required "endpoints" .text, required "path" .text,
     optional "readOnly" .flag]),
   optional "iscsi" (.record [optional "chapAuthDiscovery" .flag, optional "chapAuthSession" .flag,
     optional "fsType" .text, optional "initiatorName" .text, required "iqn" .text,
     optional "iscsiInterface" .text, required "lun" .int32, optional "portals" texts,
     optional "readOnly" .flag, optional "secretRef" reference, required "targetPortal" .text]),
   optional "nfs" (.record [required "path" .text, optional "readOnly" .flag,
     required "server" .text]),
   optional "quobyte" (.record [optional "group" .text, optional "readOnly" .flag,
     required "registry" .text, optional "tenant" .text, optional "user" .text,
     required "volume" .text]),
   optional "rbd" (.record [optional "fsType" .text, required "image" .text,
     optional "keyring" .text, required "monitors" texts, optional "pool" .text,
     optional "readOnly" .flag, optional "secretRef" reference, optional "user" .text]),
   optional "scaleIO" (.record [optional "fsType" .text, required "gateway" .text,
     optional "protectionDomain" .text, optional "readOnly" .flag, required "secretRef" reference,
     optional "sslEnabled" .flag, optional "storageMode" .text, optional "storagePool" .text,
     required "system" .text, optional "volumeName" .text]),
   optional "storageos" (.record [optional "fsType" .text, optional "readOnly" .flag,
     optional "secretRef" reference, optional "volumeName" .text,
     optional "volumeNamespace" .text])]

def volume : Shape :=
  .record ([required "name" .text] ++ cloudVolumes ++ networkVolumes ++
   [optional "configMap" (.record [optional "defaultMode" .int32, optional "items" keysToPaths,
      required "name" .text, optional "optional" .flag]),
    optional "csi" (.record [required "driver" .text, optional "fsType" .text,
      optional "nodePublishSecretRef" reference, optional "readOnly" .flag,
      optional "volumeAttributes" textTable]),
    optional "downwardAPI" (.record [optional "defaultMode" .int32,
      optional "items" downwardItems]),
    optional "emptyDir" (.record [optional "medium" .text, optional "sizeLimit" .text]),
    optional "ephemeral" (.record [optional "volumeClaimTemplate"
      (.record [optional "metadata" fullMetadata, required "spec" claimSpec])]),
    optional "flexVolume" (.record [required "driver" .text, optional "fsType" .text,
      optional "options" textTable, optional "readOnly" .flag, optional "secretRef" reference]),
    optional "gitRepo" (.record [optional "directory" .text, required "repository" .text,
      optional "revision" .text]),
    optional "hostPath" (.record [required "path" .text, optional "type" .text]),
    optional "image" (.record (textFields ["pullPolicy", "reference"])),
    optional "persistentVolumeClaim" (.record [required "claimName" .text,
      optional "readOnly" .flag]),
    optional "projected" (.record [optional "defaultMode" .int32,
      optional "sources" projections]),
    optional "secret" (.record [optional "defaultMode" .int32, optional "items" keysToPaths,
      optional "optional" .flag, optional "secretName" .text])])

def nodeTerm : Shape :=
  .record [optional "matchExpressions" selectorTerms, optional "matchFields" selectorTerms]

def nodeAffinity : Shape :=
  .record [
    optional "preferredDuringSchedulingIgnoredDuringExecution"
      (.list (.record [required "preference" nodeTerm, required "weight" .int32])),
    optional "requiredDuringSchedulingIgnoredDuringExecution"
      (.record [required "nodeSelectorTerms" (.list nodeTerm)])]

def podTerm : Shape :=
  .record [optional "labelSelector" labelSelector, optional "matchLabelKeys" texts,
    optional "mismatchLabelKeys" texts, optional "namespaceSelector" labelSelector,
    optional "namespaces" texts, required "topologyKey" .text]

def podAffinity : Shape :=
  .record [
    optional "preferredDuringSchedulingIgnoredDuringExecution"
      (.list (.record [required "podAffinityTerm" podTerm, required "weight" .int32])),
    optional "requiredDuringSchedulingIgnoredDuringExecution" (.list podTerm)]

def affinity : Shape :=
  .record [optional "nodeAffinity" nodeAffinity, optional "podAffinity" podAffinity,
    optional "podAntiAffinity" podAffinity]

def tolerations : Shape :=
  .list (.record [optional "effect" .text, optional "key" .text, optional "operator" .text,
    optional "tolerationSeconds" .int64, optional "value" .text])

def spreadConstraints : Shape :=
  .list (.record [optional "labelSelector" labelSelector, optional "matchLabelKeys" texts,
    required "maxSkew" .int32, optional "minDomains" .int32, optional "nodeAffinityPolicy" .text,
    optional "nodeTaintsPolicy" .text, required "topologyKey" .text,
    required "whenUnsatisfiable" .text])

def podSecurityContext : Shape :=
  .record [optional "appArmorProfile" profile, optional "fsGroup" .int64,
    optional "fsGroupChangePolicy" .text, optional "runAsGroup" .int64,
    optional "runAsNonRoot" .flag, optional "runAsUser" .int64,
    optional "seLinuxChangePolicy" .text, optional "seLinuxOptions" seLinuxOptions,
    optional "seccompProfile" profile, optional "supplementalGroups" (.list .int64),
    optional "supplementalGroupsPolicy" .text,
    optional "sysctls" (.list (.record [required "name" .text, required "value" .text])),
    optional "windowsOptions" windowsOptions]

def nameConfig : Shape :=
  .record [optional "nameservers" texts,
    optional "options" (.list (.record (textFields ["name", "value"]))), optional "searches" texts]

/-- A specification without its containers. -/
def spec : Fields :=
  [optional "activeDeadlineSeconds" .int64, optional "affinity" affinity,
   optional "automountServiceAccountToken" .flag, optional "dnsConfig" nameConfig,
   optional "dnsPolicy" .text, optional "enableServiceLinks" .flag,
   optional "ephemeralContainers"
     (.list (.record (plainContainer ++ [optional "targetContainerName" .text]))),
   optional "hostAliases" (.list (.record [optional "hostnames" texts, required "ip" .text]))]
  ++ flagFields ["hostIPC", "hostNetwork", "hostPID", "hostUsers"] ++
  [optional "hostname" .text, optional "imagePullSecrets" (.list reference),
   optional "initContainers" (.list (.record plainContainer)), optional "nodeName" .text,
   optional "nodeSelector" textTable, optional "os" reference, optional "overhead" textTable,
   optional "preemptionPolicy" .text, optional "priority" .int32,
   optional "priorityClassName" .text,
   optional "readinessGates" (.list (.record [required "conditionType" .text])),
   optional "resourceClaims" (.list (.record [required "name" .text,
     optional "resourceClaimName" .text, optional "resourceClaimTemplateName" .text])),
   optional "resources" resources]
  ++ textFields ["restartPolicy", "runtimeClassName", "schedulerName"] ++
  [optional "schedulingGates" (.list reference), optional "securityContext" podSecurityContext,
   optional "serviceAccount" .text, optional "serviceAccountName" .text,
   optional "setHostnameAsFQDN" .flag, optional "shareProcessNamespace" .flag,
   optional "subdomain" .text, optional "terminationGracePeriodSeconds" .int64,
   optional "tolerations" tolerations, optional "topologySpreadConstraints" spreadConstraints,
   optional "volumes" (.list volume)]

def runningState : Shape := .record [optional "startedAt" .timestamp]

def waitingState : Shape := .record (textFields ["message", "reason"])

def terminatedState : Shape :=
  .record [optional "containerID" .text, required "exitCode" .int32,
    optional "finishedAt" .timestamp, optional "message" .text, optional "reason" .text,
    optional "signal" .int32, optional "startedAt" .timestamp]

def containerState : Shape :=
  .record [optional "running" runningState, optional "terminated" terminatedState,
    optional "waiting" waitingState]

/-- A container's status without its name, state, readiness and resources. -/
def containerStatus : Fields :=
  [optional "allocatedResourcesStatus" (.list (.record [required "name" .text,
     optional "resources"
       (.list (.record [optional "health" .text, required "resourceID" .text]))])),
   optional "containerID" .text, required "image" .text, required "imageID" .text,
   optional "lastState" containerState, required "restartCount" .int32,
   optional "stopSignal" .text,
   optional "user" (.record [optional "linux" (.record [required "gid" .int64,
     optional "supplementalGroups" (.list .int64), required "uid" .int64])]),
   optional "volumeMounts" (.list (.record [required "mountPath" .text, required "name" .text,
     optional "readOnly" .flag, optional "recursiveReadOnly" .text]))]

def plainContainerStatus : Fields :=
  containerStatus ++ [optional "allocatedResources" textTable, required "name" .text,
    required "ready" .flag, optional "resources" resources, optional "started" .flag,
    optional "state" containerState]

/-- A condition without its type, status, reason and message. -/
def condition : Fields :=
  [optional "lastProbeTime" .timestamp, optional "lastTransitionTime" .timestamp,
   optional "observedGeneration" .int64]

/-- A status without its quality of service, container statuses and conditions. -/
def status : Fields :=
  [optional "ephemeralContainerStatuses" (.list (.record plainContainerStatus)),
   optional "hostIP" .text, optional "hostIPs" (.list (.record [required "ip" .text])),
   optional "initContainerStatuses" (.list (.record plainContainerStatus)),
   optional "message" .text, optional "nominatedNodeName" .text,
   optional "observedGeneration" .int64, optional "phase" .text, optional "podIP" .text,
   optional "podIPs" (.list (.record [required "ip" .text])), optional "reason" .text,
   optional "resize" .text,
   optional "resourceClaimStatuses"
     (.list (.record [required "name" .text, optional "resourceClaimName" .text])),
   optional "startTime" .timestamp]

end PodSizing.Schema
