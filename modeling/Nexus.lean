import Nexus.ResourceShortcuts
import Nexus.ResourceStatus
import Nexus.LocationCache
import Nexus.Tfa
import Nexus.RemoteTasks.Crash
import Nexus.RemoteTasks.Interruption
import Nexus.RemoteTasks.Rotation
import Nexus.RemoteTasks.TaskList
import Nexus.Subscriptions.Privileges
import Nexus.Subscriptions.Planner
import Nexus.Subscriptions.Keys
import Nexus.Subscriptions.Orphan
import Nexus.Domains.Fingerprints
import Nexus.Domains.Inventory
import Nexus.DomainService
import Nexus.DomainsHelper.Onboard
import Nexus.Ceph.Access
import Nexus.Ceph.Removal
import Nexus.Ceph.File
import Nexus.RemoteCache.NodeNames
import Nexus.RemoteCache.BackOff
import Nexus.Metrics.Collection
import Nexus.Metrics.TopEntities
import Nexus.ParallelFetcher
import Nexus.Connection.Failover
import Nexus.Connection.Concurrent
import Nexus.SubscriptionCache.Freshness
import Nexus.MonitoringService.Linear
import Nexus.Monitoring.Downtimes
import Nexus.Monitoring.Promotion
import Nexus.Monitoring.Sequential
import Nexus.RemoteSecrets
import Nexus.RemoteUpdates.Overlap
import Nexus.Provisioning.Registration
import Nexus.FilterRules
import Nexus.RemoteUpid
import Nexus.AutoInstaller.Counters
import Nexus.AutoInstaller.Tokens
import Nexus.Realms.Updates
import Nexus.Consoles
import Nexus.SubscriptionSummary
import Nexus.Firewall
import Nexus.AutoInstaller.Secrets
import Nexus.AutoInstaller.Installations
import Nexus.AutoInstaller.PostHook
