/-
# The structures of a Re-Auth-Request

`cp/gx/gx_app/include/gx_struct.h` and `cp/gx/gx_app/src/gx_pack.c`.
-/

import Spgw.Lib.Schema

namespace Spgw
namespace Gx

open Record

/-- The structures of `gx_struct.h` that a `GxRAR` is made of. -/
inductive Struct
  | rar | ocSupportedFeatures | eventReportIndication | userCsgInformation | traceData
  | mdtConfiguration | areaScope | mbsfnArea | presenceReportingAreaInformation
  | chargingRuleRemove | chargingRuleInstall | chargingRuleDefinition | flowInformation
  | qosInformation | allocationRetentionPriority | conditionalApnAggregateMaxBitrate | flows
  | redirectInformation | defaultEpsBearerQos | defaultQosInformation
  | usageMonitoringInformation | grantedServiceUnit | ccMoney | unitValue | usedServiceUnit
  | conditionalPolicyInformation | praInstall | praRemove | proxyInfo

inductive Member
  | sessionId | drmp | authApplicationId | originHost | originRealm | destinationRealm
  | destinationHost | reAuthRequestType | sessionReleaseCause | originStateId
  | ocSupportedFeatures | eventTrigger | eventReportIndication | chargingRuleRemove
  | chargingRuleInstall | defaultEpsBearerQos | qosInformation | defaultQosInformation
  | revalidationTime | usageMonitoringInformation | pcscfRestorationIndication
  | conditionalPolicyInformation | removalOfAccess | ipCanType | praInstall | praRemove
  | csgInformationReporting | proxyInfo | routeRecord | ocFeatureVector | anTrusted
  | userCsgInformation | anGwAddress | tgppSgsnAddress | tgppSgsnIpv6Address | tgppSgsnMccMnc
  | framedIpAddress | ratType | rai | tgppUserLocationInfo | traceData | traceReference
  | tgpp2Bsid | tgppMsTimezone | routingIpAddress | ueLocalIpAddress | henbLocalIpAddress
  | udpSourcePort | presenceReportingAreaInformation | csgId | csgAccessMode
  | csgMembershipIndication | traceDepth | traceNeTypeList | traceInterfaceList | traceEventList
  | omcId | traceCollectionEntity | mdtConfiguration | jobType | areaScope | listOfMeasurements
  | reportingTrigger | reportInterval | reportAmount | eventThresholdRsrp | eventThresholdRsrq
  | loggingInterval | loggingDuration | measurementPeriodLte | measurementPeriodUmts
  | collectionPeriodRrmLte | collectionPeriodRrmUmts | positioningMethod | measurementQuantity
  | eventThresholdEvent1f | eventThresholdEvent1i | mdtAllowedPlmnId | mbsfnArea
  | cellGlobalIdentity | eUtranCellGlobalIdentity | routingAreaIdentity | locationAreaIdentity
  | trackingAreaIdentity | mbsfnAreaId | carrierFrequency | presenceReportingAreaIdentifier
  | presenceReportingAreaStatus | presenceReportingAreaElementsList | presenceReportingAreaNode
  | chargingRuleName | chargingRuleBaseName | requiredAccessInfo | resourceReleaseNotification
  | chargingRuleDefinition | bearerIdentifier | monitoringFlags | ruleActivationTime
  | ruleDeactivationTime | resourceAllocationNotification | chargingCorrelationIndicator
  | serviceIdentifier | ratingGroup | flowInformation | defaultBearerIndication
  | tdfApplicationIdentifier | flowStatus | psToCsSessionContinuity | reportingLevel | online
  | offline | maxPlrDl | maxPlrUl | meteringMethod | precedence | afChargingIdentifier | flows
  | monitoringKey | redirectInformation | muteNotification | afSignallingProtocol
  | sponsorIdentity | applicationServiceProviderIdentity | sharingKeyDl | sharingKeyUl
  | trafficSteeringPolicyIdentifierDl | trafficSteeringPolicyIdentifierUl | contentVersion
  | flowDescription | packetFilterIdentifier | packetFilterUsage | tosTrafficClass
  | securityParameterIndex | flowLabel | flowDirection | routingRuleIdentifier
  | qosClassIdentifier | maxRequestedBandwidthUl | maxRequestedBandwidthDl
  | extendedMaxRequestedBwUl | extendedMaxRequestedBwDl | guaranteedBitrateUl
  | guaranteedBitrateDl | extendedGbrUl | extendedGbrDl | allocationRetentionPriority
  | apnAggregateMaxBitrateUl | apnAggregateMaxBitrateDl | extendedApnAmbrUl | extendedApnAmbrDl
  | conditionalApnAggregateMaxBitrate | priorityLevel | preEmptionCapability
  | preEmptionVulnerability | mediaComponentNumber | flowNumber | finalUnitAction
  | mediaComponentStatus | redirectSupport | redirectAddressType | redirectServerAddress
  | defaultQosName | grantedServiceUnit | usedServiceUnit | quotaConsumptionTime
  | usageMonitoringLevel | usageMonitoringReport | usageMonitoringSupport | tariffTimeChange
  | ccTime | ccMoney | ccTotalOctets | ccInputOctets | ccOutputOctets | ccServiceSpecificUnits
  | unitValue | currencyCode | valueDigits | exponent | reportingReason | tariffChangeUsage
  | eventChargingTimestamp | executionTime | proxyHost | proxyState

/-- An integer of four octets. -/
abbrev u32 : Kind Struct := .basic 4

/-- An octet string of up to 255 octets. -/
abbrev text : Kind Struct := .string 255

/-- The members of each structure, in the order in which `gx_pack.c` goes over them. -/
def members : Struct → List (Member × Kind Struct)
  | .rar =>
    [(.sessionId, text), (.drmp, u32), (.authApplicationId, u32), (.originHost, text),
     (.originRealm, text), (.destinationRealm, text), (.destinationHost, text),
     (.reAuthRequestType, u32), (.sessionReleaseCause, u32), (.originStateId, u32),
     (.ocSupportedFeatures, .record .ocSupportedFeatures), (.eventTrigger, .basics 4),
     (.eventReportIndication, .record .eventReportIndication),
     (.chargingRuleRemove, .records .chargingRuleRemove),
     (.chargingRuleInstall, .records .chargingRuleInstall),
     (.defaultEpsBearerQos, .record .defaultEpsBearerQos),
     (.qosInformation, .records .qosInformation),
     (.defaultQosInformation, .record .defaultQosInformation), (.revalidationTime, .basic 8),
     (.usageMonitoringInformation, .records .usageMonitoringInformation),
     (.pcscfRestorationIndication, u32),
     (.conditionalPolicyInformation, .records .conditionalPolicyInformation),
     (.removalOfAccess, u32), (.ipCanType, u32), (.praInstall, .record .praInstall),
     (.praRemove, .record .praRemove), (.csgInformationReporting, .basics 4),
     (.proxyInfo, .records .proxyInfo), (.routeRecord, .strings 255)]
  | .ocSupportedFeatures => [(.ocFeatureVector, .basic 8)]
  | .eventReportIndication =>
    [(.anTrusted, u32), (.eventTrigger, .basics 4),
     (.userCsgInformation, .record .userCsgInformation), (.ipCanType, u32),
     (.anGwAddress, .basics 18), (.tgppSgsnAddress, text), (.tgppSgsnIpv6Address, text),
     (.tgppSgsnMccMnc, text), (.framedIpAddress, text), (.ratType, u32), (.rai, text),
     (.tgppUserLocationInfo, text), (.traceData, .record .traceData), (.traceReference, text),
     (.tgpp2Bsid, text), (.tgppMsTimezone, text), (.routingIpAddress, .basic 18),
     (.ueLocalIpAddress, .basic 18), (.henbLocalIpAddress, .basic 18), (.udpSourcePort, u32),
     (.presenceReportingAreaInformation, .record .presenceReportingAreaInformation)]
  | .userCsgInformation =>
    [(.csgId, u32), (.csgAccessMode, u32), (.csgMembershipIndication, u32)]
  | .traceData =>
    [(.traceReference, text), (.traceDepth, u32), (.traceNeTypeList, text),
     (.traceInterfaceList, text), (.traceEventList, text), (.omcId, text),
     (.traceCollectionEntity, .basic 18), (.mdtConfiguration, .record .mdtConfiguration)]
  | .mdtConfiguration =>
    [(.jobType, u32), (.areaScope, .record .areaScope), (.listOfMeasurements, u32),
     (.reportingTrigger, u32), (.reportInterval, u32), (.reportAmount, u32),
     (.eventThresholdRsrp, u32), (.eventThresholdRsrq, u32), (.loggingInterval, u32),
     (.loggingDuration, u32), (.measurementPeriodLte, u32), (.measurementPeriodUmts, u32),
     (.collectionPeriodRrmLte, u32), (.collectionPeriodRrmUmts, u32), (.positioningMethod, text),
     (.measurementQuantity, text), (.eventThresholdEvent1f, u32), (.eventThresholdEvent1i, u32),
     (.mdtAllowedPlmnId, .strings 255), (.mbsfnArea, .records .mbsfnArea)]
  | .areaScope =>
    [(.cellGlobalIdentity, .strings 255), (.eUtranCellGlobalIdentity, .strings 255),
     (.routingAreaIdentity, .strings 255), (.locationAreaIdentity, .strings 255),
     (.trackingAreaIdentity, .strings 255)]
  | .mbsfnArea => [(.mbsfnAreaId, u32), (.carrierFrequency, u32)]
  | .presenceReportingAreaInformation =>
    [(.presenceReportingAreaIdentifier, text), (.presenceReportingAreaStatus, u32),
     (.presenceReportingAreaElementsList, text), (.presenceReportingAreaNode, u32)]
  | .chargingRuleRemove =>
    [(.chargingRuleName, .strings 255), (.chargingRuleBaseName, .strings 255),
     (.requiredAccessInfo, .basics 4), (.resourceReleaseNotification, u32)]
  | .chargingRuleInstall =>
    [(.chargingRuleDefinition, .records .chargingRuleDefinition), (.chargingRuleName, .strings 255),
     (.chargingRuleBaseName, .strings 255), (.bearerIdentifier, text), (.monitoringFlags, u32),
     (.ruleActivationTime, .basic 8), (.ruleDeactivationTime, .basic 8),
     (.resourceAllocationNotification, u32), (.chargingCorrelationIndicator, u32),
     (.ipCanType, u32)]
  | .chargingRuleDefinition =>
    [(.chargingRuleName, text), (.serviceIdentifier, u32), (.ratingGroup, u32),
     (.flowInformation, .records .flowInformation), (.defaultBearerIndication, u32),
     (.tdfApplicationIdentifier, text), (.flowStatus, u32),
     (.qosInformation, .record .qosInformation), (.psToCsSessionContinuity, u32),
     (.reportingLevel, u32), (.online, u32), (.offline, u32), (.maxPlrDl, u32),
     (.maxPlrUl, u32), (.meteringMethod, u32), (.precedence, u32), (.afChargingIdentifier, text),
     (.flows, .records .flows), (.monitoringKey, text),
     (.redirectInformation, .record .redirectInformation), (.muteNotification, u32),
     (.afSignallingProtocol, u32), (.sponsorIdentity, text),
     (.applicationServiceProviderIdentity, text), (.requiredAccessInfo, .basics 4),
     (.sharingKeyDl, u32), (.sharingKeyUl, u32), (.trafficSteeringPolicyIdentifierDl, text),
     (.trafficSteeringPolicyIdentifierUl, text), (.contentVersion, .basic 8)]
  | .flowInformation =>
    [(.flowDescription, text), (.packetFilterIdentifier, text), (.packetFilterUsage, u32),
     (.tosTrafficClass, text), (.securityParameterIndex, text), (.flowLabel, text),
     (.flowDirection, u32), (.routingRuleIdentifier, text)]
  | .qosInformation =>
    [(.qosClassIdentifier, u32), (.maxRequestedBandwidthUl, u32),
     (.maxRequestedBandwidthDl, u32), (.extendedMaxRequestedBwUl, u32),
     (.extendedMaxRequestedBwDl, u32), (.guaranteedBitrateUl, u32), (.guaranteedBitrateDl, u32),
     (.extendedGbrUl, u32), (.extendedGbrDl, u32), (.bearerIdentifier, text),
     (.allocationRetentionPriority, .record .allocationRetentionPriority),
     (.apnAggregateMaxBitrateUl, u32), (.apnAggregateMaxBitrateDl, u32),
     (.extendedApnAmbrUl, u32), (.extendedApnAmbrDl, u32),
     (.conditionalApnAggregateMaxBitrate, .records .conditionalApnAggregateMaxBitrate)]
  | .allocationRetentionPriority =>
    [(.priorityLevel, u32), (.preEmptionCapability, u32), (.preEmptionVulnerability, u32)]
  | .conditionalApnAggregateMaxBitrate =>
    [(.apnAggregateMaxBitrateUl, u32), (.apnAggregateMaxBitrateDl, u32),
     (.extendedApnAmbrUl, u32), (.extendedApnAmbrDl, u32), (.ipCanType, .basics 4),
     (.ratType, .basics 4)]
  | .flows =>
    [(.mediaComponentNumber, u32), (.flowNumber, .basics 4), (.contentVersion, .basics 8),
     (.finalUnitAction, u32), (.mediaComponentStatus, u32)]
  | .redirectInformation =>
    [(.redirectSupport, u32), (.redirectAddressType, u32), (.redirectServerAddress, text)]
  | .defaultEpsBearerQos =>
    [(.qosClassIdentifier, u32),
     (.allocationRetentionPriority, .record .allocationRetentionPriority)]
  | .defaultQosInformation =>
    [(.qosClassIdentifier, u32), (.maxRequestedBandwidthUl, u32),
     (.maxRequestedBandwidthDl, u32), (.defaultQosName, text)]
  | .usageMonitoringInformation =>
    [(.monitoringKey, text), (.grantedServiceUnit, .records .grantedServiceUnit),
     (.usedServiceUnit, .records .usedServiceUnit), (.quotaConsumptionTime, u32),
     (.usageMonitoringLevel, u32), (.usageMonitoringReport, u32), (.usageMonitoringSupport, u32)]
  | .grantedServiceUnit =>
    [(.tariffTimeChange, .basic 8), (.ccTime, u32), (.ccMoney, .record .ccMoney),
     (.ccTotalOctets, .basic 8), (.ccInputOctets, .basic 8), (.ccOutputOctets, .basic 8),
     (.ccServiceSpecificUnits, .basic 8)]
  | .ccMoney => [(.unitValue, .record .unitValue), (.currencyCode, u32)]
  | .unitValue => [(.valueDigits, .basic 8), (.exponent, u32)]
  | .usedServiceUnit =>
    [(.reportingReason, u32), (.tariffChangeUsage, u32), (.ccTime, u32),
     (.ccMoney, .record .ccMoney), (.ccTotalOctets, .basic 8), (.ccInputOctets, .basic 8),
     (.ccOutputOctets, .basic 8), (.ccServiceSpecificUnits, .basic 8),
     (.eventChargingTimestamp, .basics 8)]
  | .conditionalPolicyInformation =>
    [(.executionTime, .basic 8), (.defaultEpsBearerQos, .record .defaultEpsBearerQos),
     (.apnAggregateMaxBitrateUl, u32), (.apnAggregateMaxBitrateDl, u32),
     (.extendedApnAmbrUl, u32), (.extendedApnAmbrDl, u32),
     (.conditionalApnAggregateMaxBitrate, .records .conditionalApnAggregateMaxBitrate)]
  | .praInstall => [(.presenceReportingAreaInformation, .records .presenceReportingAreaInformation)]
  | .praRemove => [(.presenceReportingAreaIdentifier, .strings 255)]
  | .proxyInfo => [(.proxyHost, text), (.proxyState, text)]

theorem good_members (k : Struct) : ∀ e ∈ members k, e.2.Good := by
  cases k <;> decide

def shallow : ℕ → Struct → Bool
  | 0, _ => false
  | n + 1, k => (members k).all fun e =>
    match e.2 with
    | .record k' | .records k' => shallow n k'
    | _ => true

def GxRar : Type := Rec members 5 .rar

example : shallow 5 .rar = true ∧ shallow 4 .rar = false := by decide

end Gx
end Spgw
